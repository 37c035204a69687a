import ContactReplay.Proofs.GraphStream.RoundTrip
import ContactReplay.Proofs.Replay.Running

/-!
# Lines that enact events

The lines of a graph stream enact events: after them, the edges that are up are those of the pairs
that the events keep connected, and the link of a pair is up exactly if the pair is connected.

* `NamesOpen` says that an edge has the number of the addition that keeps a pair connected;
* `Transcribed.takesTurns` says that the lines of alternating events can be played one after the
  other;
* `Enacts` is the invariant of playing them, with past events and lines newest first.
-/

namespace ContactReplay.GraphStream

/-! ## Edges of connected pairs -/

/-- An edge has the number of the addition that keeps a pair connected after past events. -/
def NamesOpen (past : List Event) (edge : String) (pair : Pair NodeName) : Prop :=
  ∃ number, edge = edgeName number ∧ openNumber? pair past = some number

section NamesOpen

variable {past : List Event} {pair : Pair NodeName}

theorem NamesOpen.unique {edge : String} {other : Pair NodeName} (named : NamesOpen past edge pair)
    (otherNamed : NamesOpen past edge other) : pair = other := by
  obtain ⟨number, rfl, connected⟩ := named
  obtain ⟨otherNumber, sameName, otherConnected⟩ := otherNamed
  obtain rfl := edgeName_injective sameName
  exact openNumber?_injective connected otherConnected

/-- The edge of an addition is not up before it. -/
theorem not_namesOpen_additions (past : List Event) (pair : Pair NodeName) :
    ¬ NamesOpen past (edgeName (additions past)) pair := by
  rintro ⟨number, sameName, connected⟩
  have below := openNumber?_lt_additions connected
  rw [edgeName_injective sameName] at below
  exact Nat.lt_irrefl _ below

/-- After an addition its edge is up, next to those that were up before. -/
theorem namesOpen_cons_add (apart : openNumber? pair past = none) (edge : String)
    (other : Pair NodeName) :
    NamesOpen (⟨.add, pair⟩ :: past) edge other ↔
      (edge = edgeName (additions past) ∧ other = pair) ∨ NamesOpen past edge other := by
  by_cases same : pair = other
  · subst same
    simp only [NamesOpen, openNumber?_cons_add, apart]
    simp
  · have elsewhere : openNumber? other (⟨.add, pair⟩ :: past) = openNumber? other past :=
      openNumber?_cons_of_ne same past
    simp only [NamesOpen, elsewhere]
    simp [Ne.symm same]

/-- After a deletion its edge is not up, unlike the others that were up before. -/
theorem namesOpen_cons_delete {number : Nat} (connected : openNumber? pair past = some number)
    (edge : String) (other : Pair NodeName) :
    NamesOpen (⟨.delete, pair⟩ :: past) edge other ↔
      edge ≠ edgeName number ∧ NamesOpen past edge other := by
  have mine : NamesOpen past (edgeName number) pair := ⟨number, rfl, connected⟩
  by_cases same : pair = other
  · subst same
    simp only [NamesOpen, openNumber?_cons_delete, connected]
    simp
  · have elsewhere : openNumber? other (⟨.delete, pair⟩ :: past) = openNumber? other past :=
      openNumber?_cons_of_ne same past
    have kept : NamesOpen (⟨.delete, pair⟩ :: past) edge other ↔ NamesOpen past edge other := by
      simp only [NamesOpen, elsewhere]
    rw [kept]
    refine (and_iff_right_of_imp ?_).symm
    rintro named rfl
    exact same (mine.unique named)

end NamesOpen

/-! ## Turns -/

/-- The lines of alternating events add edges that are not up and delete edges that are. -/
theorem Transcribed.takesTurns {past events : List Event} {lines : List EdgeLine}
    (transcribed : Transcribed past events lines) (alternates : Alternates past events)
    {up : List String} (same : ∀ edge, edge ∈ up ↔ ∃ pair, NamesOpen past edge pair) :
    TakesTurns up lines := by
  induction transcribed generalizing up with
  | nil past => trivial
  | @cons past rest others event number _ inductionHypothesis =>
      obtain ⟨possible, restAlternates⟩ := alternates
      obtain ⟨change, pair⟩ := event
      cases change with
      | add =>
          have apart : openNumber? pair past = none := possible
          refine ⟨?_, inductionHypothesis restAlternates fun edge => ?_⟩
          · rw [same]
            rintro ⟨other, named⟩
            exact not_namesOpen_additions past other named
          · simp only [List.mem_cons, same, namesOpen_cons_add apart, exists_or, edgeOf]
            simp
      | delete =>
          obtain ⟨edgeNumber, connected⟩ := possible
          have named : edgeOf past ⟨.delete, pair⟩ = edgeName edgeNumber := by
            simp only [edgeOf, connected, Option.getD_some]
          refine ⟨?_, inductionHypothesis restAlternates fun edge => ?_⟩
          · rw [same, named]
            exact ⟨pair, edgeNumber, rfl, connected⟩
          · rw [named]
            simp only [List.mem_filter, same, namesOpen_cons_delete connected]
            simp [and_comm]

/-! ## Edges and links -/

/-- The identifiers of a pair of nodes that are registered under their labels. -/
def idsOf (registry : Registry) (pair : Pair NodeName) : Option (Pair NodeId) :=
  registry.pair? pair.low.label pair.high.label

/-- Some pairs of nodes are registered, no two of them under the same identifiers. -/
structure Separates (registry : Registry) (pairs : List (Pair NodeName)) : Prop where
  known : ∀ pair ∈ pairs, ∃ ids, idsOf registry pair = some ids
  injective : ∀ first ∈ pairs, ∀ second ∈ pairs, ∀ ids, idsOf registry first = some ids →
    idsOf registry second = some ids → first = second

/-- Past lines enact past events: the edges that are up are those of the connected pairs, and just
the links of connected pairs are up. -/
structure Enacts (registry : Registry) (pairs : List (Pair NodeName)) (past : List Event)
    (lines : List EdgeLine) : Prop where
  opened : ∀ edge ids, openPair? registry edge lines = some ids ↔
    ∃ pair, NamesOpen past edge pair ∧ idsOf registry pair = some ids
  loss : ∀ pair ∈ pairs, ∀ ids, idsOf registry pair = some ids →
    lossAfter registry ids lines =
      if (openNumber? pair past).isSome then Loss.up else Loss.down

section Enacts

variable {registry : Registry} {pairs : List (Pair NodeName)} {past : List Event}
  {lines : List EdgeLine}

theorem enacts_nil (registry : Registry) (pairs : List (Pair NodeName)) :
    Enacts registry pairs [] [] where
  opened edge ids := by simp [openPair?, NamesOpen, openNumber?]
  loss pair _ ids _ := rfl

theorem Enacts.changedPair?_lineOf (enacts : Enacts registry pairs past lines) {event : Event}
    (possible : CanFollow past event) {ids : Pair NodeId}
    (known : idsOf registry event.pair = some ids) (number : Nat) :
    changedPair? registry lines (lineOf past event number) = some ids := by
  obtain ⟨change, pair⟩ := event
  cases change with
  | add => exact known
  | delete =>
      obtain ⟨edgeNumber, connected⟩ := possible
      simp only [lineOf, changedPair?, enacts.opened]
      refine ⟨pair, ⟨edgeNumber, ?_, connected⟩, known⟩
      simp only [edgeOf, connected, Option.getD_some]

theorem Enacts.loss_step (enacts : Enacts registry pairs past lines)
    (separates : Separates registry pairs) {event : Event} (listed : event.pair ∈ pairs)
    (possible : CanFollow past event) (number : Nat) {pair : Pair NodeName} (member : pair ∈ pairs)
    {ids : Pair NodeId} (known : idsOf registry pair = some ids) :
    lossAfter registry ids (lineOf past event number :: lines) =
      if (openNumber? pair (event :: past)).isSome then Loss.up else Loss.down := by
  obtain ⟨eventIds, eventKnown⟩ := separates.known event.pair listed
  rw [lossAfter, enacts.changedPair?_lineOf possible eventKnown]
  by_cases same : event.pair = pair
  · have sameIds : eventIds = ids := by
      rw [same, known] at eventKnown
      exact (Option.some.inj eventKnown).symm
    rw [if_pos (congrArg some sameIds), openNumber?, if_pos same, lineOf]
    cases event.change <;> rfl
  · -- The pairs have identifiers of their own, so this is another link.
    have otherIds : ¬ some eventIds = some ids := by
      rintro sameIds
      rw [sameIds] at eventKnown
      exact same (separates.injective _ listed _ member _ eventKnown known)
    rw [if_neg otherIds, openNumber?_cons_of_ne same]
    exact enacts.loss pair member ids known

theorem Enacts.opened_step (enacts : Enacts registry pairs past lines) {event : Event}
    (possible : CanFollow past event) (number : Nat) (edge : String) (ids : Pair NodeId) :
    openPair? registry edge (lineOf past event number :: lines) = some ids ↔
      ∃ pair, NamesOpen (event :: past) edge pair ∧ idsOf registry pair = some ids := by
  obtain ⟨change, pair⟩ := event
  cases change with
  | add =>
      have apart : openNumber? pair past = none := possible
      simp only [lineOf, edgeOf, openPair?, namesOpen_cons_add apart]
      by_cases same : edgeName (additions past) = edge
      · subst same
        simp [not_namesOpen_additions, idsOf]
      · rw [if_neg same, enacts.opened]
        simp [Ne.symm same]
  | delete =>
      obtain ⟨edgeNumber, connected⟩ := possible
      simp only [lineOf, edgeOf, openPair?, namesOpen_cons_delete connected, connected,
        Option.getD_some]
      by_cases same : edgeName edgeNumber = edge
      · simp [same]
      · rw [if_neg same, enacts.opened]
        simp [Ne.symm same]

theorem Enacts.step (enacts : Enacts registry pairs past lines)
    (separates : Separates registry pairs) {event : Event} (listed : event.pair ∈ pairs)
    (possible : CanFollow past event) (number : Nat) :
    Enacts registry pairs (event :: past) (lineOf past event number :: lines) where
  opened := enacts.opened_step possible number
  loss _ member _ known := enacts.loss_step separates listed possible number member known

/-- The lines of events that follow the past enact them. -/
theorem Enacts.extend (enacts : Enacts registry pairs past lines)
    (separates : Separates registry pairs) {events : List Event} {later : List EdgeLine}
    (transcribed : Transcribed past events later) (alternates : Alternates past events)
    (listed : ∀ event ∈ events, event.pair ∈ pairs) :
    Enacts registry pairs (events.reverse ++ past) (later.reverse ++ lines) := by
  induction transcribed generalizing lines with
  | nil past => exact enacts
  | cons event number _ inductionHypothesis =>
      obtain ⟨eventListed, restListed⟩ := List.forall_mem_cons.mp listed
      have next := inductionHypothesis
        (enacts.step separates eventListed alternates.1 number) alternates.2 restListed
      simpa using next

end Enacts

end ContactReplay.GraphStream
