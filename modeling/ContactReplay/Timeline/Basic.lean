import ContactReplay.Contact.Basic
import ContactReplay.Table

/-!
# Timelines

A timeline says moment by moment when two nodes become connected and when they part again:

* `Moment` is one step with its events in order, and `Timeline` is a list of moments together with
  the set of all nodes;
* `Mark` is a single event with its step, and `Timeline.marks` reads a timeline event by event;
* `Timeline.intervals` turns the events of each pair back into intervals.

A timeline may be of any shape.  Those that contacts are merged to have strictly ascending steps.
The events of each pair alternate in them, beginning with an addition, unless a contact of the pair
begins at the very last step.
-/

namespace ContactReplay

abbrev NameSet := Table NodeName Unit

/-- What an event does to the connection of a pair. -/
inductive Change where
  | add
  | delete
  deriving DecidableEq, Repr

/-- A change of the connection of one pair. -/
structure Event where
  change : Change
  pair : Pair NodeName
  deriving DecidableEq, Repr

/-- A step and its events in order. -/
structure Moment where
  step : UInt64
  events : List Event
  deriving DecidableEq, Repr

/-- Events between nodes over time. -/
structure Timeline where
  nodes : NameSet
  moments : List Moment
  deriving DecidableEq, Repr

/-- An event and the step at which it happens. -/
structure Mark where
  step : UInt64
  event : Event
  deriving DecidableEq, Repr

namespace Moment

def marks (moment : Moment) : List Mark := moment.events.map fun event => ⟨moment.step, event⟩

end Moment

/-! ## Intervals -/

/-- A pair is connected from one step to another. -/
structure Interval where
  start : UInt64
  stop : UInt64
  deriving DecidableEq, Repr

/-- What has become known of the connections of all pairs: since when each connected pair is
connected, and the intervals of each pair that have ended, in order. -/
structure Connections where
  since : Table (Pair NodeName) UInt64 := {}
  ended : Table (Pair NodeName) (List Interval) := {}
  deriving DecidableEq, Repr

namespace Connections

def intervalsOf (connections : Connections) (pair : Pair NodeName) : List Interval :=
  (connections.ended.get? pair).getD []

/-- Take note of a mark.  A later addition takes the place of an open one, and a deletion without an
open addition ends nothing. -/
def follow (connections : Connections) (mark : Mark) : Connections :=
  let pair := mark.event.pair
  match mark.event.change with
  | .add => { connections with since := connections.since.insert pair mark.step }
  | .delete =>
      match connections.since.get? pair with
      | none => connections
      | some start =>
          { since := connections.since.erase pair
            ended := connections.ended.insert pair
              (connections.intervalsOf pair ++ [⟨start, mark.step⟩]) }

def followAll (connections : Connections) (marks : List Mark) : Connections :=
  marks.foldl follow connections

end Connections

namespace Timeline

/-- The events of a timeline in order, each with its step. -/
def marks (timeline : Timeline) : List Mark := timeline.moments.flatMap Moment.marks

def eventCount (timeline : Timeline) : Nat := timeline.marks.length

def marksOf (timeline : Timeline) (pair : Pair NodeName) : List Mark :=
  timeline.marks.filter fun mark => mark.event.pair = pair

/-- The pairs that have an interval, ascending, each with its intervals in order. -/
def intervals (timeline : Timeline) : List (Pair NodeName × List Interval) :=
  (Connections.followAll {} timeline.marks).ended.entries

end Timeline

end ContactReplay
