import ContactReplay.Addressing.AddressBook
import ContactReplay.Daemon.Configurator
import ContactReplay.Duration
import ContactReplay.Grid

/-!
# Replay settings

`Settings` holds everything that can be chosen about a replay, and every choice has a default.  The
settings of the parts that a replay is made of are defined with those parts.
-/

namespace ContactReplay

/-- How long a replay waits before a step. -/
inductive Pacing where
  /-- The same time before every step. -/
  | fixed
  /-- A time for every unit of the distance to the step before. -/
  | proportional
  deriving DecidableEq, Repr, Inhabited

namespace Pacing

def word : Pacing → String
  | .fixed => "fixed"
  | .proportional => "proportional"

def ofWord? (word : String) : Option Pacing :=
  [Pacing.fixed, Pacing.proportional].find? fun pacing => pacing.word = word

end Pacing

/-- A node outside the grid that the links do not reach. -/
structure ControlNode where
  name : String := "control"
  model : String := "MONITORING"
  position : Position := ⟨50, 50⟩
  deriving DecidableEq, Repr, Inhabited

/-- The settings of a replay. -/
structure Settings where
  /-- The number of steps to replay, `none` for all. -/
  maxSteps : Option UInt64 := none
  /-- In milliseconds. -/
  stepDelay : UInt64 := 5000
  pacing : Pacing := .fixed
  interactive : Bool := false
  nodeModel : String := "DTN"
  service : String := "dtnd"
  configFile : String := "dtnd.toml"
  addressing : AddressPlan := {}
  daemon : DaemonSettings := {}
  controlNode : Option ControlNode := none
  /-- The network that is passed to the session as its control network. -/
  controlNet : Option String := none
  grid : Grid := {}
  deriving DecidableEq, Repr, Inhabited

namespace Settings

def check (settings : Settings) : Except ConfigError Unit :=
  if settings.grid.columns = 0 then .error .zeroColumns
  else if settings.service.isEmpty || settings.configFile.isEmpty then .error .unnamedServiceFile
  else .ok ()

/-- The wait before a step that is `gap` after the step before it.  Beyond 2^32 - 1 a gap makes no
difference any more. -/
def delay (settings : Settings) (gap : UInt64) : Duration :=
  let base := Duration.ofMilliseconds settings.stepDelay
  match settings.pacing with
  | .fixed => base
  | .proportional => base.times (min gap.toNat (UInt32.size - 1))

end Settings

end ContactReplay
