import ContactReplay.Cli.Arguments
import ContactReplay.Cli.Console
import ContactReplay.GraphStream.Reader
import ContactReplay.Replay.Conductor
import ContactReplay.Settings.Reader
import ContactReplay.Testbed.Journal

/-!
# Replaying graph streams

The second tool replays a graph stream against a testbed in memory.  Settings come from a file, and
options of the command line go over them.  Everything that is read is read before the replay begins.
The journal is written when the replay has ended, whether it succeeded or not; if both the replay
and the journal fail, both are reported, and the replay's failure is the tool's.
-/

namespace ContactReplay.Cli

/-- What the tool is asked to do. -/
structure ReplayOptions where
  document : String
  settings : Option String := none
  maxSteps : Option UInt64 := none
  stepDelay : Option UInt64 := none
  pacing : Option String := none
  interactive : Bool := false
  /-- Neither wait nor prompt. -/
  noWait : Bool := false
  /-- The file with the configuration that every node begins with. -/
  template : Option String := none
  controlNode : Bool := false
  controlNet : Option String := none
  journal : Option String := none
  deriving DecidableEq, Repr

namespace ReplayOptions

def specs : List OptionSpec :=
  [⟨"dgs", .path⟩, ⟨"config", .path⟩, ⟨"max-steps", .number⟩, ⟨"step-delay-ms", .number⟩,
    ⟨"pacing", .text⟩, ⟨"interactive", .flag⟩, ⟨"no-wait", .flag⟩, ⟨"config-template", .path⟩,
    ⟨"control-node", .flag⟩, ⟨"control-net", .text⟩, ⟨"journal", .path⟩]

/-- What a command line asks for; the graph stream has to be named. -/
def read (arguments : List String) : Except Stop ReplayOptions := do
  let taken ← readArguments specs arguments
  let some document := taken.text? "dgs" | throw .misuse
  return {
    document
    settings := taken.text? "config"
    maxSteps := taken.number? "max-steps"
    stepDelay := taken.number? "step-delay-ms"
    pacing := taken.text? "pacing"
    interactive := taken.has "interactive"
    noWait := taken.has "no-wait"
    template := taken.text? "config-template"
    controlNode := taken.has "control-node"
    controlNet := taken.text? "control-net"
    journal := taken.text? "journal" }

def choosePacing (options : ReplayOptions) (default : Pacing) : Except Error Pacing :=
  match options.pacing with
  | none => .ok default
  | some word =>
      match Pacing.ofWord? word with
      | some pacing => .ok pacing
      | none => .error (.config (.unknownPacing word))

def overlay (options : ReplayOptions) (settings : Settings) : Except Error Settings := do
  let pacing ← options.choosePacing settings.pacing
  return { settings with
    maxSteps := options.maxSteps <|> settings.maxSteps
    stepDelay := options.stepDelay.getD settings.stepDelay
    pacing
    interactive := settings.interactive || options.interactive
    controlNode := settings.controlNode <|> (if options.controlNode then some {} else none)
    controlNet := options.controlNet <|> settings.controlNet }

end ReplayOptions

variable {m : Type → Type} [Monad m] [Console m]

/-- The settings of a replay, checked with and without the options over them. -/
def loadSettings (options : ReplayOptions) : Errand m Settings := do
  let base ← match options.settings with
    | none => pure {}
    | some path => do
        let settings ← Errand.attempt (Settings.read (← Errand.readText path))
        Errand.attempt (settings.check.mapError .config)
        pure settings
  let settings ← Errand.attempt (options.overlay base)
  Errand.attempt (settings.check.mapError .config)
  return settings

/-- Answer a question of a replay: requests go to the testbed, and the operator is left alone if the
tool is not to wait. -/
def answer (noWait : Bool) (question : Ask) : StateT Testbed m question.Reply :=
  match question with
  | .request request => fun testbed => pure (testbed.serve request)
  | .pause duration => do
      unless noWait do
        StateT.lift (Console.wait duration)
  | .confirm prompt => do
      if noWait then return .ok ()
      return (← StateT.lift (Console.confirm prompt)).mapError .device
  | .isCancelled => return false

def play (noWait : Bool) (conductor : Conductor) (document : Document) (testbed : Testbed) :
    m (Except Error Report × Testbed) := do
  let ((outcome, _), used) ← ((conductor.script document).play (answer noWait)).run testbed
  return (outcome, used)

/-- Write the journal of a testbed, and report it if that fails. -/
def keepJournal (path : String) (testbed : Testbed) : Errand m Unit := do
  tryCatch (Errand.writeText path (journalText testbed.calls)) fun error => do
    ExceptT.lift (Console.report error)
    throw error

def replay (options : ReplayOptions) : Errand m Report := do
  let settings ← loadSettings options
  let document ← Errand.attempt (Document.read (← Errand.readText options.document))
  let template ← match options.template with
    | some path => Errand.readText path
    | none => pure ""
  let conductor ← Errand.attempt (Conductor.start settings)
  let testbed : Testbed := { serviceFiles := .ofList [(Conductor.configName settings, template)] }
  let (outcome, used) ← ExceptT.lift (play options.noWait conductor document testbed)
  let kept ← ExceptT.lift <| ExceptT.run <| match options.journal with
    | some path => keepJournal path used
    | none => pure ()
  let report ← Errand.attempt outcome
  Errand.attempt kept
  return report

def reportLine (report : Report) : String :=
  s!"done: nodes={report.nodesCreated} skipped={report.nodesSkipped} " ++
    s!"links={report.linksCreated} steps={report.stepsRun} " ++
    s!"activated={report.linksActivated} deactivated={report.linksDeactivated}"

end ContactReplay.Cli
