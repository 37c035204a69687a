import ContactReplay.Cli.Arguments
import ContactReplay.Cli.Console
import ContactReplay.Contact.Trace
import ContactReplay.GraphStream.Writer
import ContactReplay.Timeline.Merger

/-!
# Compiling contact traces

The first tool reads a contact trace, merges its contacts and writes the graph stream to a file or
to the output.  The file is made once merging has succeeded; when the timeline turns out not to be
writable as a whole, the lines before the failure stay in it.
-/

namespace ContactReplay.Cli

/-- What the tool is asked to do. -/
structure CompileOptions where
  contacts : String
  /-- The file to write, `none` for the output. -/
  out : Option String := none
  graphName : String := "contacts"
  pad : UInt64 := defaultPad
  deriving DecidableEq, Repr

namespace CompileOptions

def specs : List OptionSpec :=
  [⟨"contacts", .path⟩, ⟨"out", .path⟩, ⟨"graph-name", .text⟩, ⟨"zero-duration-pad", .number⟩]

/-- What a command line asks for; the trace has to be named. -/
def read (arguments : List String) : Except Stop CompileOptions := do
  let taken ← readArguments specs arguments
  let some contacts := taken.text? "contacts" | throw .misuse
  return {
    contacts
    out := taken.text? "out"
    graphName := (taken.text? "graph-name").getD "contacts"
    pad := (taken.number? "zero-duration-pad").getD defaultPad }

end CompileOptions

variable {m : Type → Type} [Monad m] [Console m]

/-- The number of bytes that wait before any of them are written to a file. -/
def bufferSize : Nat := 8192

/-- Write a manuscript to a file or to the output.  A failure to write is noticed when the buffer
overflows or at the end, so what keeps a manuscript from being whole goes before it if and only if
all lines fit into the buffer. -/
def publish (manuscript : Manuscript) : Option String → Errand m Tally
  | none => do
      ExceptT.lift (Console.output manuscript.text)
      Errand.attempt manuscript.outcome
  | some path => do
      Errand.createFile path
      let written ← ExceptT.lift (Errand.appendText path manuscript.text).run
      if bufferSize < manuscript.text.utf8ByteSize then
        Errand.attempt written
      let tally ← Errand.attempt manuscript.outcome
      Errand.attempt written
      return tally

def compile (options : CompileOptions) : Errand m Tally := do
  let trace ← Errand.readText options.contacts
  let contacts ← Errand.attempt (Contact.readTrace trace)
  let timeline ← Errand.attempt (Timeline.ofContacts contacts options.pad)
  publish (timeline.manuscript options.graphName) options.out

def tallyLine (tally : Tally) : String :=
  s!"steps={tally.steps} events={tally.events} edges={tally.edges}"

end ContactReplay.Cli
