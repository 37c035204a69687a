import ContactReplay.Cli.Compile
import ContactReplay.Cli.Replay

/-!
# Tools

There are two command-line tools.  A tool ends with the status 0 if it has done its work or shown
its help, with 1 after an error, which it reports, and with 2 if its command line cannot be
understood.
-/

namespace ContactReplay.Cli

/-- The command-line tools. -/
inductive Tool where
  | compile
  | replay
  deriving DecidableEq, Repr

namespace Tool

def name : Tool → String
  | .compile => "contacts_to_dgs"
  | .replay => "run_dgs"

def ofName? (name : String) : Option Tool :=
  [Tool.compile, Tool.replay].find? fun tool => tool.name = name

end Tool

namespace Stop

/-- The status that a tool ends with when its command line is not carried out. -/
def status : Stop → UInt32
  | .help => 0
  | .misuse => 2

end Stop

variable {m : Type → Type} [Monad m] [Console m]

/-- Carry an errand out, show its result, and give the status. -/
def conclude {α : Type} (errand : Errand m α) (succeed : α → m Unit) : m UInt32 := do
  match ← errand.run with
  | .ok result => do
      succeed result
      return 0
  | .error error => do
      Console.report error
      return 1

def Tool.run (tool : Tool) (arguments : List String) : m UInt32 :=
  match tool with
  | .compile =>
      match CompileOptions.read arguments with
      | .error stop => pure stop.status
      | .ok options =>
          conclude (Cli.compile options) fun tally => Console.summarize (tallyLine tally)
  | .replay =>
      match ReplayOptions.read arguments with
      | .error stop => pure stop.status
      | .ok options =>
          conclude (Cli.replay options) fun report => Console.output (reportLine report ++ "\n")

end ContactReplay.Cli
