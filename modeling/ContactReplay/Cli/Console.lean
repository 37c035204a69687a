import ContactReplay.Error
import ContactReplay.Replay.Script

/-!
# Consoles

A `Console` is what the command-line tools need from their surroundings: files, an output, a place
for reports, and an operator.
-/

namespace ContactReplay.Cli

/-- The surroundings of a tool. -/
class Console (m : Type → Type) where
  readText (path : String) : m (Except DeviceError String)
  /-- Make an empty file, in the place of the one that may be there. -/
  createFile (path : String) : m (Except DeviceError Unit)
  appendText (path text : String) : m (Except DeviceError Unit)
  output (text : String) : m Unit
  /-- Show what has been done, beside the output. -/
  summarize (line : String) : m Unit
  /-- Report an error, beside the output. -/
  report (error : Error) : m Unit
  confirm (prompt : Prompt) : m (Except DeviceError Unit)
  wait (duration : Duration) : m Unit

/-- An activity in the surroundings of a tool that may fail. -/
abbrev Errand (m : Type → Type) := ExceptT Error m

namespace Errand

variable {m : Type → Type} [Monad m] [Console m]

def readText (path : String) : Errand m String :=
  ExceptT.mk do return (← Console.readText path).mapError .device

def createFile (path : String) : Errand m Unit :=
  ExceptT.mk do return (← Console.createFile path).mapError .device

def appendText (path text : String) : Errand m Unit :=
  ExceptT.mk do return (← Console.appendText path text).mapError .device

def writeText (path text : String) : Errand m Unit := do
  createFile path
  appendText path text

/-- Go on with the value of an outcome, or fail with its error. -/
def attempt {α : Type} (outcome : Except Error α) : Errand m α := ExceptT.mk (pure outcome)

end Errand

end ContactReplay.Cli
