import ContactReplay.Error
import ContactReplay.Table
import ContactReplay.Text.Replace

/-!
# Daemon configurations

Every node runs a daemon with a configuration text of its own.  A `Configurator` collects for each
node the addresses of its neighbours and then, once, turns a template into the node's configuration:
four settings are put in the place of the values that the template has, and the addresses in the
place of a line that marks where they belong.  Each place is the first one that matches in the text
as it is by then; what the template does not have is left out.
-/

namespace ContactReplay

/-- The settings that go into every daemon configuration. -/
structure DaemonSettings where
  convergenceLayer : String := "udp"
  routingStrategy : String := "external"
  /-- In milliseconds. -/
  discoveryInterval : UInt64 := 500
  /-- In milliseconds. -/
  janitorInterval : UInt64 := 2500
  deriving DecidableEq, Repr, Inhabited

/-- A text to look for and the text to put in its place. -/
structure Substitution where
  pattern : String
  replacement : String
  deriving DecidableEq, Repr

namespace Substitution

/-- Carry a substitution out at the first place that matches. -/
def carryOut (substitution : Substitution) (text : String) : String :=
  Text.replaceFirst substitution.pattern substitution.replacement text

/-- The lines that tell a daemon the addresses of its neighbours. -/
def neighbourLines (addresses : List String) : String :=
  String.join ("[discovery_destinations]\n" ::
    addresses.zipIdx.map fun (address, index) => s!"target.{index}.destination = \"{address}\"\n")

/-- The substitution that puts the addresses of the neighbours into a configuration. -/
def ofNeighbours (addresses : List String) : Substitution :=
  ⟨"# [discovery_destinations]\n", neighbourLines addresses⟩

end Substitution

namespace DaemonSettings

/-- The substitutions that put the settings into a configuration. -/
def substitutions (settings : DaemonSettings) : List Substitution :=
  [⟨"cla.0.id = \"mtcp\"", s!"cla.0.id = \"{settings.convergenceLayer}\""⟩,
    ⟨"strategy = \"epidemic\"", s!"strategy = \"{settings.routingStrategy}\""⟩,
    ⟨"interval = \"2s\"", s!"interval = \"{settings.discoveryInterval}ms\""⟩,
    ⟨"janitor = \"10s\"", s!"janitor = \"{settings.janitorInterval}ms\""⟩]

end DaemonSettings

/-- What is known about the daemons of all nodes. -/
structure Configurator where
  settings : DaemonSettings
  /-- The addresses for each node in the order in which they came. -/
  neighbours : Table NodeId (List String) := ∅
  configured : Table NodeId Unit := ∅
  deriving DecidableEq, Repr

namespace Configurator

def addresses (configurator : Configurator) (node : NodeId) : List String :=
  (configurator.neighbours.get? node).getD []

/-- Collect an address for a node whose configuration is not made yet. -/
def collect (configurator : Configurator) (node : NodeId) (address : String) :
    Except Error Unit × Configurator :=
  if configurator.configured.contains node then
    (.error (.invariant (.lateAddress node)), configurator)
  else
    let addresses := configurator.addresses node ++ [address]
    (.ok (), { configurator with neighbours := configurator.neighbours.insert node addresses })

/-- The substitutions for the configuration of a node in the order in which they are carried out. -/
def substitutions (configurator : Configurator) (node : NodeId) : List Substitution :=
  configurator.settings.substitutions ++
    [Substitution.ofNeighbours (configurator.addresses node)]

/-- The configuration that a template becomes for a node. -/
def fill (configurator : Configurator) (node : NodeId) (template : String) : String :=
  (configurator.substitutions node).foldl (fun text substitution => substitution.carryOut text)
    template

/-- Make the configuration of a node, which can be done once. -/
def configure (configurator : Configurator) (node : NodeId) (template : String) :
    Except Error String × Configurator :=
  if configurator.configured.contains node then
    (.error (.invariant (.configuredTwice node)), configurator)
  else
    (.ok (configurator.fill node template),
      { configurator with configured := configurator.configured.insert node () })

end Configurator

end ContactReplay
