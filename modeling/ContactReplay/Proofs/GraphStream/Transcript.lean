import ContactReplay.GraphStream.Writer
import ContactReplay.Proofs.Text.Sentence

/-!
# Transcripts

The graph stream of a timeline, worked out from the events themselves:

* the additions are numbered in order, and `openNumber?` is the number of the addition that keeps a
  pair connected after some events;
* `Alternates` says that events add only pairs that are not connected and delete only pairs that
  are, so that each of them can be written;
* `bodyWords` are the words of the lines after the setup step and `documentSteps` what these lines
  say;
* `Transcribed` relates events to lines that say what happens in them, one after the other.

Past events are listed newest first.
-/

namespace ContactReplay.GraphStream

/-- How many of some events are additions. -/
def additions (events : List Event) : Nat := events.countP fun event => event.change = .add

/-- The number of the addition that keeps a pair connected after past events. -/
def openNumber? (pair : Pair NodeName) : List Event → Option Nat
  | [] => none
  | event :: earlier =>
      if event.pair = pair then
        match event.change with
        | .add => some (additions earlier)
        | .delete => none
      else openNumber? pair earlier

/-- An event can follow past events: it adds a pair that is not connected or deletes one that is. -/
def CanFollow (past : List Event) (event : Event) : Prop :=
  match event.change with
  | .add => openNumber? event.pair past = none
  | .delete => ∃ number, openNumber? event.pair past = some number

/-- Each of some events can follow the past and those before it. -/
def Alternates (past : List Event) : List Event → Prop
  | [] => True
  | event :: rest => CanFollow past event ∧ Alternates (event :: past) rest

/-- The name of the edge of an addition. -/
def edgeName (number : Nat) : String := s!"e{number}"

/-- The name of the edge that an event adds or deletes after past events. -/
def edgeOf (past : List Event) (event : Event) : String :=
  match event.change with
  | .add => edgeName (additions past)
  | .delete => edgeName ((openNumber? event.pair past).getD 0)

/-- The words of the line of an event. -/
def wordsOf (past : List Event) (event : Event) : List String :=
  match event.change with
  | .add =>
      [Action.addEdge.word, edgeOf past event, event.pair.low.label, event.pair.high.label]
  | .delete => [Action.deleteEdge.word, edgeOf past event]

/-- What the line of an event says. -/
def lineOf (past : List Event) (event : Event) (number : Nat) : EdgeLine :=
  match event.change with
  | .add => .add (edgeOf past event) event.pair.low.label event.pair.high.label number
  | .delete => .delete (edgeOf past event) number

/-- The words of the lines of events. -/
def eventWords (past : List Event) : List Event → List (List String)
  | [] => []
  | event :: rest => wordsOf past event :: eventWords (event :: past) rest

/-- What the lines of events say, the first of them with a given number. -/
def eventLines (past : List Event) (number : Nat) : List Event → List EdgeLine
  | [] => []
  | event :: rest => lineOf past event number :: eventLines (event :: past) (number + 1) rest

/-- The words of the line that begins a step. -/
def stepWords (step : UInt64) : List String := [Action.step.word, toString step]

/-- The words of the lines of moments. -/
def bodyWords (offset : UInt64) (past : List Event) : List Moment → List (List String)
  | [] => []
  | moment :: rest =>
      stepWords (moment.step + offset) :: eventWords past moment.events ++
        bodyWords offset (moment.events.reverse ++ past) rest

/-- What the lines of moments say, the first of them with a given number. -/
def documentSteps (offset : UInt64) (past : List Event) (number : Nat) :
    List Moment → List DocumentStep
  | [] => []
  | moment :: rest =>
      ⟨moment.step + offset, number, eventLines past (number + 1) moment.events⟩ ::
        documentSteps offset (moment.events.reverse ++ past)
          (number + 1 + moment.events.length) rest

/-! ## The numbers of additions -/

@[simp]
theorem additions_cons (event : Event) (earlier : List Event) :
    additions (event :: earlier) =
      additions earlier + if event.change = .add then 1 else 0 := by
  simp [additions, List.countP_cons]

theorem additions_append (first second : List Event) :
    additions (first ++ second) = additions first + additions second :=
  List.countP_append

theorem additions_reverse (events : List Event) : additions events.reverse = additions events :=
  List.countP_reverse

theorem openNumber?_cons_of_ne {event : Event} {pair : Pair NodeName}
    (different : event.pair ≠ pair) (earlier : List Event) :
    openNumber? pair (event :: earlier) = openNumber? pair earlier :=
  if_neg different

theorem openNumber?_cons_add (pair : Pair NodeName) (earlier : List Event) :
    openNumber? pair (⟨.add, pair⟩ :: earlier) = some (additions earlier) :=
  if_pos rfl

theorem openNumber?_cons_delete (pair : Pair NodeName) (earlier : List Event) :
    openNumber? pair (⟨.delete, pair⟩ :: earlier) = none :=
  if_pos rfl

/-- The latest event about a pair says whether it is connected and by which addition. -/
theorem openNumber?_cons_eq_some_iff {event : Event} {pair : Pair NodeName} {earlier : List Event}
    {number : Nat} :
    openNumber? pair (event :: earlier) = some number ↔
      (event = ⟨.add, pair⟩ ∧ additions earlier = number) ∨
        (event.pair ≠ pair ∧ openNumber? pair earlier = some number) := by
  obtain ⟨change, about⟩ := event
  by_cases same : about = pair
  · subst same
    cases change with
    | add => simp [openNumber?_cons_add]
    | delete => simp [openNumber?_cons_delete]
  · have elsewhere : openNumber? pair (⟨change, about⟩ :: earlier) = openNumber? pair earlier :=
      openNumber?_cons_of_ne same earlier
    simp [elsewhere, same]

theorem openNumber?_lt_additions {pair : Pair NodeName} {past : List Event} {number : Nat}
    (connected : openNumber? pair past = some number) : number < additions past := by
  induction past with
  | nil => cases connected
  | cons event earlier inductionHypothesis =>
      rw [additions_cons]
      rcases openNumber?_cons_eq_some_iff.mp connected with ⟨rfl, rfl⟩ | ⟨-, before⟩
      · simp
      · have bound := inductionHypothesis before
        omega

/-- One addition keeps one pair connected. -/
theorem openNumber?_injective {pair other : Pair NodeName} {past : List Event} {number : Nat}
    (connected : openNumber? pair past = some number)
    (otherConnected : openNumber? other past = some number) : pair = other := by
  induction past with
  | nil => cases connected
  | cons event earlier inductionHypothesis =>
      rcases openNumber?_cons_eq_some_iff.mp connected with ⟨added, counted⟩ | ⟨-, before⟩ <;>
      rcases openNumber?_cons_eq_some_iff.mp otherConnected with
        ⟨otherAdded, otherCounted⟩ | ⟨-, otherBefore⟩
      · rw [added] at otherAdded
        exact congrArg Event.pair otherAdded
      · have bound := openNumber?_lt_additions otherBefore
        omega
      · have bound := openNumber?_lt_additions before
        omega
      · exact inductionHypothesis before otherBefore

theorem alternates_append (past first second : List Event) :
    Alternates past (first ++ second) ↔
      Alternates past first ∧ Alternates (first.reverse ++ past) second := by
  induction first generalizing past with
  | nil => simp [Alternates]
  | cons event rest inductionHypothesis =>
      simp [Alternates, inductionHypothesis, and_assoc]

theorem eventLines_length (past : List Event) (number : Nat) (events : List Event) :
    (eventLines past number events).length = events.length := by
  induction events generalizing past number with
  | nil => rfl
  | cons event rest inductionHypothesis => simp [eventLines, inductionHypothesis]

theorem eventWords_length (past : List Event) (events : List Event) :
    (eventWords past events).length = events.length := by
  induction events generalizing past with
  | nil => rfl
  | cons event rest inductionHypothesis => simp [eventWords, inductionHypothesis]

/-! ## Lines of events -/

/-- Lines are those of events after the past, one for each. -/
inductive Transcribed : List Event → List Event → List EdgeLine → Prop where
  | nil (past : List Event) : Transcribed past [] []
  | cons {past rest : List Event} {others : List EdgeLine} (event : Event) (number : Nat)
      (later : Transcribed (event :: past) rest others) :
      Transcribed past (event :: rest) (lineOf past event number :: others)

theorem transcribed_eventLines (past : List Event) (number : Nat) (events : List Event) :
    Transcribed past events (eventLines past number events) := by
  induction events generalizing past number with
  | nil => exact .nil past
  | cons event rest inductionHypothesis => exact .cons event number (inductionHypothesis _ _)

theorem Transcribed.append {past first second : List Event} {lines others : List EdgeLine}
    (transcribed : Transcribed past first lines)
    (later : Transcribed (first.reverse ++ past) second others) :
    Transcribed past (first ++ second) (lines ++ others) := by
  induction transcribed with
  | nil past => exact later
  | cons event number _ inductionHypothesis =>
      refine .cons event number (inductionHypothesis ?_)
      rwa [List.reverse_cons, List.append_assoc] at later

theorem transcribed_documentSteps (offset : UInt64) (past : List Event) (number : Nat)
    (moments : List Moment) :
    Transcribed past (moments.flatMap (·.events))
      ((documentSteps offset past number moments).flatMap (·.lines)) := by
  induction moments generalizing past number with
  | nil => exact .nil past
  | cons moment rest inductionHypothesis =>
      rw [documentSteps, List.flatMap_cons, List.flatMap_cons]
      exact (transcribed_eventLines past (number + 1) moment.events).append
        (inductionHypothesis _ _)

theorem Transcribed.length_eq {past events : List Event} {lines : List EdgeLine}
    (transcribed : Transcribed past events lines) : lines.length = events.length := by
  induction transcribed with
  | nil past => rfl
  | cons event number _ inductionHypothesis => simp [inductionHypothesis]

theorem Transcribed.exists_getElem? {past events : List Event} {lines : List EdgeLine}
    (transcribed : Transcribed past events lines) {place : Nat} {event : Event}
    (found : events[place]? = some event) :
    ∃ number, lines[place]? =
      some (lineOf ((events.take place).reverse ++ past) event number) := by
  induction transcribed generalizing place with
  | nil past => simp at found
  | cons first number _ inductionHypothesis =>
      cases place with
      | zero =>
          obtain rfl : first = event := by simpa using found
          exact ⟨number, rfl⟩
      | succ earlier =>
          rw [List.getElem?_cons_succ] at found
          obtain ⟨lineNumber, located⟩ := inductionHypothesis found
          refine ⟨lineNumber, ?_⟩
          rw [List.getElem?_cons_succ, located]
          simp

theorem Transcribed.exists_event {past events : List Event} {lines : List EdgeLine}
    (transcribed : Transcribed past events lines) {line : EdgeLine} (member : line ∈ lines) :
    ∃ event ∈ events, ∃ before number, line = lineOf before event number := by
  induction transcribed with
  | nil past => cases member
  | cons event number _ inductionHypothesis =>
      rcases List.mem_cons.mp member with rfl | later
      · exact ⟨event, List.mem_cons_self, _, number, rfl⟩
      · obtain ⟨other, otherMember, described⟩ := inductionHypothesis later
        exact ⟨other, List.mem_cons_of_mem _ otherMember, described⟩

theorem Transcribed.exists_line {past events : List Event} {lines : List EdgeLine}
    (transcribed : Transcribed past events lines) {event : Event} (member : event ∈ events) :
    ∃ before number, lineOf before event number ∈ lines := by
  induction transcribed with
  | nil past => cases member
  | cons first number _ inductionHypothesis =>
      rcases List.mem_cons.mp member with rfl | later
      · exact ⟨_, number, List.mem_cons_self⟩
      · obtain ⟨before, lineNumber, lineMember⟩ := inductionHypothesis later
        exact ⟨before, lineNumber, List.mem_cons_of_mem _ lineMember⟩

end ContactReplay.GraphStream
