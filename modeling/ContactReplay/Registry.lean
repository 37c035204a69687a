import ContactReplay.Error
import ContactReplay.Table

/-!
# Node registries

A graph stream names nodes by texts and a testbed by identifiers.  A `Registry` binds each name to
one identifier and each identifier to one name; what is bound once stays bound.
-/

namespace ContactReplay

/-- Names and identifiers of nodes, bound in both directions. -/
structure Registry where
  byName : Table String NodeId := ∅
  byId : Table NodeId String := ∅
  deriving DecidableEq, Repr, Inhabited

namespace Registry

def id? (registry : Registry) (name : String) : Option NodeId := registry.byName.get? name

def name? (registry : Registry) (id : NodeId) : Option String := registry.byId.get? id

def size (registry : Registry) : Nat := registry.byId.size

def isEmpty (registry : Registry) : Bool := registry.byId.isEmpty

def ids (registry : Registry) : List NodeId := registry.byId.keys

/-- Bind a name to an identifier; a name or an identifier that is bound already is refused. -/
def insert (registry : Registry) (name : String) (id : NodeId) : Except Error Registry :=
  match registry.id? name, registry.name? id with
  | some _, _ => .error (.invariant (.nodeDeclaredTwice name))
  | none, some holder => .error (.invariant (.idInUse id holder))
  | none, none => .ok ⟨registry.byName.insert name id, registry.byId.insert id name⟩

/-- The identifier of a name that a line of a graph stream refers to. -/
def resolve (registry : Registry) (name : String) (line : Nat) : Except Error NodeId :=
  match registry.id? name with
  | some id => .ok id
  | none => .error (.invariant (.undeclaredNode line name))

end Registry

end ContactReplay
