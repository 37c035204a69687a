import ContactReplay.GraphStream.Document
import ContactReplay.GraphStream.Sink
import ContactReplay.Text.Blank
import ContactReplay.Timeline.Basic

/-!
# Writing graph streams

A timeline is written line by line.  Every addition of an edge gets a name of its own, `e0`, `e1`
and so on, and the deletion that follows it uses that name again.  The format keeps step zero for
the setup, so a timeline that begins with step zero is written with every step later by one.

A `Manuscript` is what there is to write and how writing ends: lines come out even if a later event
cannot be written.  `Timeline.write` writes a manuscript to a sink.
-/

namespace ContactReplay

/-- What a written graph stream contains. -/
structure Tally where
  steps : Nat
  /-- The number of lines that declare a node, add an edge or delete one. -/
  events : Nat
  edges : Nat
  deriving DecidableEq, Repr

namespace GraphStream

/-- A part of the body of a graph stream. -/
inductive Entry where
  | step (step : UInt64)
  | event (event : Event)
  deriving DecidableEq, Repr

def Entry.ofMoment (moment : Moment) : List Entry :=
  .step moment.step :: moment.events.map .event

/-- What has to be remembered between two lines of the body. -/
structure Scribe where
  offset : UInt64
  /-- The step that is being written, as it is written. -/
  step : UInt64 := 0
  edges : Counter := {}
  opened : Table (Pair NodeName) UInt32 := ∅
  deriving DecidableEq, Repr

namespace Scribe

def writeEvent (scribe : Scribe) (event : Event) : Except InvariantError (String × Scribe) :=
  let pair := event.pair
  match event.change, scribe.opened.get? pair with
  | .add, some _ => .error (.addWhileOpen pair scribe.step)
  | .add, none =>
      let edge := scribe.edges.next
      .ok (s!"{Action.addEdge} e{edge} {pair.low} {pair.high}",
        { scribe with edges := scribe.edges.advance, opened := scribe.opened.insert pair edge })
  | .delete, some edge =>
      .ok (s!"{Action.deleteEdge} e{edge}", { scribe with opened := scribe.opened.erase pair })
  | .delete, none => .error (.deleteWhileClosed pair scribe.step)

def writeEntry (scribe : Scribe) : Entry → Except InvariantError (String × Scribe)
  | .step step =>
      if step.toNat + scribe.offset.toNat < UInt64.size then
        let shifted := step + scribe.offset
        .ok (s!"{Action.step} {shifted}", { scribe with step := shifted })
      else .error (.unshiftableStep step)
  | .event event => scribe.writeEvent event

/-- The lines of a list of entries up to the first that cannot be written. -/
def writeEntries (scribe : Scribe) : List Entry → List String × Except InvariantError Scribe
  | [] => ([], .ok scribe)
  | entry :: rest =>
      match scribe.writeEntry entry with
      | .error cause => ([], .error cause)
      | .ok (line, next) =>
          let (lines, outcome) := next.writeEntries rest
          (line :: lines, outcome)

end Scribe

end GraphStream

/-- The lines to write and how writing ends once they are written. -/
structure Manuscript where
  lines : List String
  outcome : Except Error Tally

namespace Manuscript

def text (manuscript : Manuscript) : String := String.join (manuscript.lines.map (· ++ "\n"))

end Manuscript

namespace Timeline

/-- The number of a node whose label is also the text of another node. -/
def sharedLabel? (timeline : Timeline) : Option UInt64 :=
  timeline.nodes.keys.findSome? fun
    | .number _ => none
    | .text text => timeline.nodes.keys.findSome? fun
        | .number value => if (NodeName.number value).label = text then some value else none
        | .text _ => none

def offset (timeline : Timeline) : UInt64 :=
  match timeline.moments with
  | first :: _ => if first.step = 0 then 1 else 0
  | [] => 0

/-- The number of steps to write, the setup step included. -/
def stepCount (timeline : Timeline) : Nat := timeline.moments.length + 1

/-- The number of lines to write that declare a node, add an edge or delete one. -/
def lineCount (timeline : Timeline) : Nat := timeline.nodes.size + timeline.eventCount

def entries (timeline : Timeline) : List GraphStream.Entry :=
  timeline.moments.flatMap GraphStream.Entry.ofMoment

def preamble (timeline : Timeline) (graphName : String) : List String :=
  [formatTag, s!"{graphName} {timeline.stepCount} {timeline.lineCount}", s!"{Action.step} 0"] ++
    timeline.nodes.keys.map fun node => s!"{Action.addNode} {node}"

/-- What there is to write of a timeline under the name of a graph. -/
def manuscript (timeline : Timeline) (graphName : String) : Manuscript :=
  if !Text.isToken graphName.toList then ⟨[], .error (.config (.graphName graphName))⟩
  else
    match timeline.sharedLabel? with
    | some value => ⟨[], .error (.invariant (.sharedLabel value))⟩
    | none =>
        let (lines, outcome) :=
          GraphStream.Scribe.writeEntries { offset := timeline.offset } timeline.entries
        ⟨timeline.preamble graphName ++ lines,
          match outcome with
          | .error cause => .error (.invariant cause)
          | .ok scribe =>
              .ok ⟨timeline.stepCount, timeline.lineCount, scribe.edges.next.toNat⟩⟩

def write (timeline : Timeline) (graphName : String) (sink : Sink) : Except Error Tally × Sink :=
  let manuscript := timeline.manuscript graphName
  match sink.writeLines manuscript.lines with
  | (.ok _, full) => (manuscript.outcome, full)
  | (.error error, full) => (.error error, full)

/-- The text of a timeline that can be written as a whole. -/
def graphText (timeline : Timeline) (graphName : String) : Except Error String := do
  let manuscript := timeline.manuscript graphName
  let _ ← manuscript.outcome
  return manuscript.text

end Timeline

end ContactReplay
