import ContactReplay.Proofs.GraphStream.Reading

/-!
# Round trips

What is read of a written timeline, in terms of the timeline alone:

* `Document.Transcribes` says what a document has to keep of a timeline: the name of the graph, the
  counts, the nodes, the steps and every event in its place;
* an addition has an edge name that no other addition has, and a deletion has the name of the latest
  addition of its pair;
* `read_graphText_transcribes` says that whatever is written of a legible timeline is read as such a
  document.
-/

namespace ContactReplay

namespace EdgeLine

/-- The number of the line. -/
def number : EdgeLine → Nat
  | .add _ _ _ number => number
  | .delete _ number => number

end EdgeLine

namespace DocumentStep

/-- The numbers of the lines of a step. -/
def numbers (moment : DocumentStep) : List Nat :=
  moment.number :: moment.lines.map EdgeLine.number

end DocumentStep

namespace GraphStream

/-- An addition of a pair at a place is the latest one before another place. -/
structure LatestAddition (events : List Event) (pair : Pair NodeName) (place addition : Nat) :
    Prop where
  before : addition < place
  added : events[addition]? = some ⟨.add, pair⟩
  latest : ∀ between, addition < between → between < place →
    events[between]? ≠ some ⟨.add, pair⟩

/-- No other line that adds an edge has the name of the edge at a place. -/
def NamedOnce (lines : List EdgeLine) (edge : String) (place : Nat) : Prop :=
  ∀ other first second number, lines[other]? = some (.add edge first second number) →
    other = place

/-- A line keeps the event at its place. -/
structure Keeps (events : List Event) (lines : List EdgeLine) (place : Nat) (event : Event)
    (line : EdgeLine) : Prop where
  add : event.change = .add ↔ ∃ edge number, NamedOnce lines edge place ∧
    line = .add edge event.pair.low.label event.pair.high.label number
  delete : event.change = .delete ↔ ∃ addition edge first second addedAt number,
    LatestAddition events event.pair place addition ∧
    lines[addition]? = some (.add edge first second addedAt) ∧ line = .delete edge number

end GraphStream

/-- A document keeps everything of a timeline. -/
structure Document.Transcribes (document : Document) (timeline : Timeline) (graphName : String) :
    Prop where
  graphName : document.header.graphName = graphName
  declaredSteps : document.header.declaredSteps.toNat = document.stepCount
  declaredEvents : document.header.declaredEvents.toNat = document.eventCount
  nodes : document.nodes = timeline.nodes.keys.map NodeName.label
  steps : document.steps.map (·.step.toNat) =
    timeline.moments.map fun moment => moment.step.toNat + timeline.offset.toNat
  sizes : document.steps.map (·.lines.length) = timeline.moments.map (·.events.length)
  events : ∀ place event, timeline.events[place]? = some event →
    ∃ line, document.lines[place]? = some line ∧
      GraphStream.Keeps timeline.events document.lines place event line
  numbers : document.steps.flatMap DocumentStep.numbers =
    List.range' (4 + timeline.nodes.size) (timeline.moments.length + timeline.events.length)

namespace GraphStream

/-! ## Events in their places -/

theorem canFollow_of_getElem? {past events : List Event} (alternates : Alternates past events)
    {place : Nat} {event : Event} (found : events[place]? = some event) :
    CanFollow ((events.take place).reverse ++ past) event := by
  obtain ⟨within, rfl⟩ := List.getElem?_eq_some_iff.mp found
  have parted : events = events.take place ++ events[place] :: events.drop (place + 1) := by simp
  rw [parted, alternates_append] at alternates
  exact alternates.2.1

/-! ## The names of edges -/

theorem additions_take_lt {events : List Event} {first second : Nat} {pair : Pair NodeName}
    (added : events[first]? = some ⟨.add, pair⟩) (before : first < second) :
    additions (events.take first) < additions (events.take second) := by
  obtain ⟨within, found⟩ := List.getElem?_eq_some_iff.mp added
  have upTo : events.take (first + 1) = events.take first ++ [⟨.add, pair⟩] := by
    rw [List.take_add_one, added]
    rfl
  have longer : events.take second =
      events.take (first + 1) ++ (events.take second).drop (first + 1) := by
    have shorter : events.take (first + 1) = (events.take second).take (first + 1) := by
      rw [List.take_take, Nat.min_eq_left before]
    rw [shorter, List.take_append_drop]
  rw [longer, upTo, additions_append, additions_append, additions_cons, if_pos rfl]
  omega

theorem exists_of_openNumber? {pair : Pair NodeName} {past : List Event} {number : Nat}
    (connected : openNumber? pair past = some number) :
    ∃ later earlier, past = later ++ ⟨.add, pair⟩ :: earlier ∧ number = additions earlier ∧
      ∀ event ∈ later, event.pair ≠ pair := by
  induction past with
  | nil => cases connected
  | cons event earlier inductionHypothesis =>
      rcases openNumber?_cons_eq_some_iff.mp connected with ⟨rfl, rfl⟩ | ⟨different, before⟩
      · exact ⟨[], earlier, rfl, rfl, by simp⟩
      · obtain ⟨later, oldest, rfl, counted, apart⟩ := inductionHypothesis before
        exact ⟨event :: later, oldest, rfl, counted, List.forall_mem_cons.mpr ⟨different, apart⟩⟩

/-- A pair that is connected before a place has been added, and the latest addition has its
number. -/
theorem latestAddition_of_openNumber? {events : List Event} {pair : Pair NodeName}
    {place number : Nat} (connected : openNumber? pair (events.take place).reverse = some number) :
    ∃ addition, LatestAddition events pair place addition ∧
      number = additions (events.take addition) := by
  obtain ⟨later, earlier, parted, counted, apart⟩ := exists_of_openNumber? connected
  have ordered : events.take place = earlier.reverse ++ ⟨.add, pair⟩ :: later.reverse := by
    rw [← List.reverse_reverse (events.take place), parted]
    simp
  have lengths := congrArg List.length ordered
  simp only [List.length_take, List.length_append, List.length_reverse, List.length_cons]
    at lengths
  have seen : ∀ {other : Nat}, other < place → events[other]? = (events.take place)[other]? :=
    fun within => (List.getElem?_take_of_lt within).symm
  refine ⟨earlier.length, ⟨by omega, ?_, ?_⟩, ?_⟩
  · rw [seen (by omega), ordered]
    simp
  · intro between after before found
    rw [seen before, ordered, List.getElem?_append_right (by simp; omega), List.length_reverse,
      show between - earlier.length = (between - earlier.length - 1) + 1 by omega,
      List.getElem?_cons_succ] at found
    exact apart _ (List.mem_reverse.mp (List.mem_of_getElem? found)) rfl
  · have kept : events.take earlier.length = earlier.reverse := by
      have shorter : events.take earlier.length = (events.take place).take earlier.length := by
        rw [List.take_take, Nat.min_eq_left (by omega)]
      rw [shorter, ordered]
      simp
    rw [kept, additions_reverse, counted]

/-! ## Lines in their places -/

section Lines

variable {events : List Event} {lines : List EdgeLine}
  (located : ∀ place event, events[place]? = some event →
    ∃ number, lines[place]? = some (lineOf (events.take place).reverse event number))
  (sameLength : lines.length = events.length)
include located sameLength

theorem exists_of_getElem?_add {place : Nat} {edge first second : String} {number : Nat}
    (found : lines[place]? = some (.add edge first second number)) :
    ∃ pair, events[place]? = some ⟨.add, pair⟩ ∧ edge = edgeName (additions (events.take place)) ∧
      first = pair.low.label ∧ second = pair.high.label := by
  obtain ⟨within, -⟩ := List.getElem?_eq_some_iff.mp found
  have known : events[place]? = some events[place] := List.getElem?_eq_getElem (by omega)
  obtain ⟨lineNumber, line⟩ := located place _ known
  rw [found] at line
  rcases shape : events[place] with ⟨change, pair⟩
  rw [shape] at known line
  cases change with
  | add =>
      obtain ⟨rfl, rfl, rfl, -⟩ := EdgeLine.add.inj (Option.some.inj line)
      rw [edgeOf, additions_reverse]
      exact ⟨pair, known, rfl, rfl, rfl⟩
  | delete => cases line

theorem namedOnce_of_getElem? {place : Nat} {pair : Pair NodeName}
    (found : events[place]? = some ⟨.add, pair⟩) :
    NamedOnce lines (edgeName (additions (events.take place))) place := by
  intro other first second number line
  obtain ⟨otherPair, otherFound, sameName, -, -⟩ :=
    exists_of_getElem?_add located sameLength line
  have sameCount := edgeName_injective sameName
  rcases Nat.lt_trichotomy other place with before | same | after
  · have grown := additions_take_lt otherFound before
    omega
  · exact same
  · have grown := additions_take_lt found after
    omega

theorem keeps_of_alternates (alternates : Alternates [] events) (place : Nat) (event : Event)
    (found : events[place]? = some event) :
    ∃ line, lines[place]? = some line ∧ Keeps events lines place event line := by
  obtain ⟨lineNumber, line⟩ := located place event found
  refine ⟨_, line, ?_⟩
  have possible := canFollow_of_getElem? alternates found
  rw [List.append_nil] at possible
  obtain ⟨change, pair⟩ := event
  cases change with
  | add =>
      refine ⟨iff_of_true rfl ⟨_, lineNumber, ?_, rfl⟩, iff_of_false (by simp) ?_⟩
      · rw [edgeOf, additions_reverse]
        exact namedOnce_of_getElem? located sameLength found
      · rintro ⟨_, _, _, _, _, _, _, _, deletion⟩
        cases deletion
  | delete =>
      refine ⟨iff_of_false (by simp) ?_, iff_of_true rfl ?_⟩
      · rintro ⟨_, _, _, addition⟩
        cases addition
      · obtain ⟨number, connected⟩ := possible
        obtain ⟨addition, latest, counted⟩ := latestAddition_of_openNumber? connected
        obtain ⟨addedAt, additionLine⟩ := located addition _ latest.added
        refine ⟨addition, _, _, _, addedAt, lineNumber, latest, additionLine, ?_⟩
        simp only [lineOf, edgeOf, connected, Option.getD_some, additions_reverse, counted]

end Lines

/-! ## Steps -/

theorem map_step_documentSteps (offset : UInt64) (past : List Event) (number : Nat)
    (moments : List Moment) :
    (documentSteps offset past number moments).map (·.step) =
      moments.map fun moment => moment.step + offset := by
  induction moments generalizing past number with
  | nil => rfl
  | cons moment rest inductionHypothesis => simp [documentSteps, inductionHypothesis]

theorem map_length_documentSteps (offset : UInt64) (past : List Event) (number : Nat)
    (moments : List Moment) :
    (documentSteps offset past number moments).map (·.lines.length) =
      moments.map (·.events.length) := by
  induction moments generalizing past number with
  | nil => rfl
  | cons moment rest inductionHypothesis =>
      simp [documentSteps, inductionHypothesis, eventLines_length]

theorem map_number_eventLines (past : List Event) (number : Nat) (events : List Event) :
    (eventLines past number events).map EdgeLine.number = List.range' number events.length := by
  induction events generalizing past number with
  | nil => rfl
  | cons event rest inductionHypothesis =>
      have first : (lineOf past event number).number = number := by
        rw [lineOf]
        split <;> rfl
      simp [eventLines, inductionHypothesis, first, List.range'_succ]

theorem numbers_documentSteps (offset : UInt64) (past : List Event) (number : Nat)
    (moments : List Moment) :
    (documentSteps offset past number moments).flatMap DocumentStep.numbers =
      List.range' number (moments.length + (moments.flatMap (·.events)).length) := by
  induction moments generalizing past number with
  | nil => rfl
  | cons moment rest inductionHypothesis =>
      have split : (moment :: rest).length + ((moment :: rest).flatMap (·.events)).length =
          (moment.events.length + 1) + (rest.length + (rest.flatMap (·.events)).length) := by
        simp only [List.length_cons, List.flatMap_cons, List.length_append]
        omega
      have glued : List.range' number ((moment.events.length + 1) +
            (rest.length + (rest.flatMap (·.events)).length)) =
          List.range' number (moment.events.length + 1) ++
            List.range' (number + (moment.events.length + 1))
              (rest.length + (rest.flatMap (·.events)).length) := List.range'_append_1.symm
      have regroup : number + 1 + moment.events.length = number + (moment.events.length + 1) := by
        omega
      rw [documentSteps, List.flatMap_cons, inductionHypothesis, DocumentStep.numbers,
        map_number_eventLines, split, glued, List.range'_succ, regroup]

end GraphStream

/-! ## Whole timelines -/

namespace Timeline

open GraphStream

variable {timeline : Timeline} {graphName : String}

theorem eventCount_eq (timeline : Timeline) : timeline.eventCount = timeline.events.length := by
  simp [eventCount, marks, events, Moment.marks, List.length_flatMap]

theorem stepCount_document (timeline : Timeline) (graphName : String) :
    (timeline.document graphName).stepCount = timeline.stepCount := by
  have lengths := congrArg List.length
    (map_step_documentSteps timeline.offset [] (4 + timeline.nodes.size) timeline.moments)
  rw [List.length_map, List.length_map] at lengths
  rw [Document.stepCount, document, lengths, stepCount]

theorem transcribed_document (timeline : Timeline) (graphName : String) :
    Transcribed [] timeline.events (timeline.document graphName).lines :=
  transcribed_documentSteps _ _ _ _

theorem eventCount_document (timeline : Timeline) (graphName : String) :
    (timeline.document graphName).eventCount = timeline.lineCount := by
  rw [Document.eventCount, (timeline.transcribed_document graphName).length_eq, lineCount,
    eventCount_eq]
  simp [document, Table.size, Table.keys]

/-- The document of a writable timeline keeps everything of it. -/
theorem transcribes_document (stepsFit : timeline.stepCount < UInt64.size)
    (linesFit : timeline.lineCount < UInt64.size) (writable : timeline.Writable graphName) :
    (timeline.document graphName).Transcribes timeline graphName where
  graphName := rfl
  declaredSteps := by
    rw [stepCount_document, document]
    exact UInt64.toNat_ofNat_of_lt' stepsFit
  declaredEvents := by
    rw [eventCount_document, document]
    exact UInt64.toNat_ofNat_of_lt' linesFit
  nodes := rfl
  steps := by
    have steps := congrArg (List.map UInt64.toNat)
      (map_step_documentSteps timeline.offset [] (4 + timeline.nodes.size) timeline.moments)
    rw [List.map_map, List.map_map] at steps
    refine steps.trans (List.map_congr_left fun moment member => ?_)
    exact toNat_shift (writable.shiftable moment member)
  sizes := map_length_documentSteps _ _ _ _
  events := by
    have transcribed := timeline.transcribed_document graphName
    refine keeps_of_alternates ?_ transcribed.length_eq writable.alternates
    intro place event found
    have located := transcribed.exists_getElem? found
    rwa [List.append_nil] at located
  numbers := numbers_documentSteps _ _ _ _

/-- Whatever is written of a legible timeline is read as a document that keeps everything of it.
The counts of the header are machine words, as the lengths of all lists in memory are. -/
theorem read_graphText_transcribes {text : String}
    (ascending : timeline.moments.Pairwise fun earlier later => earlier.step < later.step)
    (spoken : graphName.toList.head? ≠ some '#') (legible : timeline.Legible)
    (few : additions timeline.events < UInt32.size) (stepsFit : timeline.stepCount < UInt64.size)
    (linesFit : timeline.lineCount < UInt64.size)
    (written : timeline.graphText graphName = .ok text) :
    ∃ document, Document.read text = .ok document ∧ document.Transcribes timeline graphName := by
  have writable := writable_of_graphText few written
  rw [graphText_of_writable few writable] at written
  obtain rfl := Except.ok.inj written
  exact ⟨_, read_joinLines_words ascending legible spoken stepsFit linesFit writable,
    transcribes_document stepsFit linesFit writable⟩

/-- One pair meets from step zero on and once more while another one parts. -/
def reunion (friends others : Pair NodeName) : Timeline where
  nodes := .ofList [(.number 1, ()), (.number 2, ()), (.number 3, ())]
  moments := [⟨0, [⟨.add, friends⟩]⟩, ⟨5, [⟨.delete, friends⟩, ⟨.add, others⟩]⟩,
    ⟨9, [⟨.add, friends⟩, ⟨.delete, others⟩]⟩]

theorem read_graphText_transcribes_reunion :
    ∃ document,
      Document.read ("DGS004\ncontacts 4 8\nst 0\nan n1\nan n2\nan n3\nst 1\nae e0 n1 n2\n" ++
        "st 6\nde e0\nae e1 n2 n3\nst 10\nae e2 n1 n2\nde e1\n") = .ok document ∧
      document.Transcribes
        (reunion (.of (.number 1) (.number 2)) (.of (.number 3) (.number 2))) "contacts" :=
  read_graphText_transcribes (by decide) (by decide) (by decide) (by decide) (by decide)
    (by decide) (by rfl)

end Timeline

end ContactReplay
