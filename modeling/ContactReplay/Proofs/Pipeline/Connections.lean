import ContactReplay.Proofs.GraphStream.RoundTrip
import ContactReplay.Proofs.Timeline.Coalescing

/-!
# Connections in the events of contacts

Whether a pair is connected after some events is a matter of the events of that pair alone.  In a
timeline that tells of contacts these are the two ends of stretches, so the timeline alternates, has
as many deletions as additions, and connects a pair after the events of a step exactly if a stretch
holds the step and does not end there.
-/

namespace ContactReplay

namespace GraphStream

/-! ## Events of one pair -/

/-- The events of one pair. -/
def eventsOf (pair : Pair NodeName) (events : List Event) : List Event :=
  events.filter fun event => event.pair = pair

section Pairwise

variable {pair : Pair NodeName} {event : Event}

theorem eventsOf_cons_of_eq (same : event.pair = pair) (events : List Event) :
    eventsOf pair (event :: events) = event :: eventsOf pair events :=
  List.filter_cons_of_pos (by simpa using same)

theorem eventsOf_cons_of_ne (different : event.pair ≠ pair) (events : List Event) :
    eventsOf pair (event :: events) = eventsOf pair events :=
  List.filter_cons_of_neg (by simpa using different)

theorem isSome_openNumber?_eventsOf (pair : Pair NodeName) (past : List Event) :
    (openNumber? pair (eventsOf pair past)).isSome = (openNumber? pair past).isSome := by
  induction past with
  | nil => rfl
  | cons event earlier inductionHypothesis =>
      by_cases same : event.pair = pair
      · rw [eventsOf_cons_of_eq same, openNumber?, openNumber?, if_pos same, if_pos same]
        cases event.change <;> rfl
      · rw [eventsOf_cons_of_ne same, openNumber?_cons_of_ne same]
        exact inductionHypothesis

theorem canFollow_iff {past : List Event} :
    CanFollow past event ↔
      (openNumber? event.pair past).isSome = decide (event.change = .delete) := by
  rw [CanFollow]
  cases event.change with
  | add => simp
  | delete => simp [Option.isSome_iff_exists]

/-- Events alternate if those of every single pair do. -/
theorem alternates_of_eventsOf {past events : List Event}
    (each : ∀ pair, Alternates (eventsOf pair past) (eventsOf pair events)) :
    Alternates past events := by
  induction events generalizing past with
  | nil => trivial
  | cons event rest inductionHypothesis =>
      constructor
      · have alone := each event.pair
        rw [eventsOf_cons_of_eq rfl] at alone
        rw [canFollow_iff, ← isSome_openNumber?_eventsOf]
        exact canFollow_iff.mp alone.1
      · -- For every other pair nothing has happened yet.
        apply inductionHypothesis
        intro pair
        have alone := each pair
        by_cases same : event.pair = pair
        · rw [eventsOf_cons_of_eq same] at alone ⊢
          exact alone.2
        · rw [eventsOf_cons_of_ne same] at alone ⊢
          exact alone

/-- Events that alternate do so for every single pair. -/
theorem Alternates.eventsOf {past events : List Event} (alternates : Alternates past events)
    (pair : Pair NodeName) :
    Alternates (GraphStream.eventsOf pair past) (GraphStream.eventsOf pair events) := by
  induction events generalizing past with
  | nil => trivial
  | cons event rest inductionHypothesis =>
      obtain ⟨possible, restAlternates⟩ := alternates
      have later := inductionHypothesis restAlternates
      by_cases same : event.pair = pair
      · rw [eventsOf_cons_of_eq same] at later ⊢
        refine ⟨?_, later⟩
        rw [canFollow_iff] at possible ⊢
        rw [← possible, same, isSome_openNumber?_eventsOf]
      · rwa [eventsOf_cons_of_ne same] at later ⊢

/-- There are twice as many events as additions if every pair is deleted as often as it is added. -/
theorem length_eq_two_mul_additions {events : List Event}
    (balanced : ∀ pair, (eventsOf pair events).countP (fun event => event.change = .delete) =
      additions (eventsOf pair events)) :
    events.length = 2 * additions events := by
  have deletions : events.countP (fun event => event.change = .delete) = additions events := by
    have same : ((events.filter fun event => event.change = .delete).map Event.pair).Perm
        ((events.filter fun event => event.change = .add).map Event.pair) := by
      apply List.perm_iff_count.mpr
      intro pair
      have alone := balanced pair
      rw [additions, eventsOf, List.countP_filter, List.countP_filter] at alone
      rw [List.count_eq_countP, List.count_eq_countP, List.countP_map, List.countP_map,
        List.countP_filter, List.countP_filter]
      simpa [Function.comp_def, Bool.and_comm, beq_eq_decide] using alone
    have lengths := same.length_eq
    rwa [List.length_map, List.length_map, ← List.countP_eq_length_filter,
      ← List.countP_eq_length_filter] at lengths
  have all := @List.length_eq_countP_add_countP Event (fun event => event.change = .add) events
  have others : (fun event : Event => decide ¬ decide (event.change = .add) = true) =
      fun event => decide (event.change = .delete) := by
    funext event
    cases event.change <;> rfl
  rw [others, deletions] at all
  rw [all, additions]
  omega

end Pairwise

/-! ## Stretches -/

section Stretches

variable {pair : Pair NodeName}

/-- The events at the ends of stretches of which the newest is first. -/
def stretchEvents (pair : Pair NodeName) (stretches : List Interval) : List Event :=
  (Mark.outline pair stretches).map (·.event)

theorem stretchEvents_cons (latest : Interval) (earlier : List Interval) :
    stretchEvents pair (latest :: earlier) =
      stretchEvents pair earlier ++ [⟨.add, pair⟩, ⟨.delete, pair⟩] := by
  rw [stretchEvents, Mark.outline_cons, List.map_append]
  rfl

theorem openNumber?_stretchEvents (pair : Pair NodeName) (stretches : List Interval) :
    openNumber? pair (stretchEvents pair stretches).reverse = none := by
  cases stretches with
  | nil => rfl
  | cons latest earlier =>
      rw [stretchEvents_cons, List.reverse_append]
      exact openNumber?_cons_delete pair _

theorem alternates_stretchEvents (pair : Pair NodeName) (stretches : List Interval) :
    Alternates [] (stretchEvents pair stretches) := by
  induction stretches with
  | nil => trivial
  | cons latest earlier inductionHypothesis =>
      have closed := openNumber?_stretchEvents pair earlier
      rw [stretchEvents_cons, alternates_append, List.append_nil]
      exact ⟨inductionHypothesis, closed, ⟨_, openNumber?_cons_add pair _⟩, trivial⟩

theorem deletions_stretchEvents (pair : Pair NodeName) (stretches : List Interval) :
    (stretchEvents pair stretches).countP (fun event => event.change = .delete) =
      additions (stretchEvents pair stretches) := by
  induction stretches with
  | nil => rfl
  | cons latest earlier inductionHypothesis =>
      rw [stretchEvents_cons, additions_append, List.countP_append, inductionHypothesis]
      rfl

/-- After the marks up to a step a pair is connected if a stretch holds the step and does not end
there. -/
theorem isSome_openNumber?_outline {stretches : List Interval}
    (apart : stretches.Pairwise fun later earlier => earlier.stop < later.start)
    (lasting : ∀ stretch ∈ stretches, stretch.start < stretch.stop) (step : UInt64) :
    (openNumber? pair (((Mark.outline pair stretches).filter fun mark =>
        mark.step ≤ step).map (·.event)).reverse).isSome = true ↔
      ∃ stretch ∈ stretches, stretch.start ≤ step ∧ step < stretch.stop := by
  induction stretches with
  | nil => simp [openNumber?]
  | cons latest earlier inductionHypothesis =>
      obtain ⟨before, earlierApart⟩ := List.pairwise_cons.mp apart
      obtain ⟨lasts, earlierLasting⟩ := List.forall_mem_cons.mp lasting
      rw [Mark.outline_cons, List.filter_append, List.map_append, List.reverse_append,
        List.exists_mem_cons_iff]
      -- The newest stretch decides, unless it begins after the step.
      by_cases begun : latest.start ≤ step
      · have finished : ¬ ∃ stretch ∈ earlier, stretch.start ≤ step ∧ step < stretch.stop := by
          rintro ⟨stretch, member, -, running⟩
          have passed := UInt64.lt_of_lt_of_le (before stretch member) begun
          exact UInt64.lt_irrefl _ (UInt64.lt_trans passed running)
        by_cases ended : latest.stop ≤ step
        · have running : ¬ step < latest.stop := UInt64.not_lt.mpr ended
          simp [Interval.marks, begun, ended, finished, openNumber?_cons_delete]
        · have running : step < latest.stop := UInt64.not_le.mp ended
          simp [Interval.marks, begun, ended, running, openNumber?_cons_add]
      · have pending : ¬ latest.stop ≤ step := fun ended =>
          begun (UInt64.le_trans (UInt64.le_of_lt lasts) ended)
        simpa [Interval.marks, begun, pending] using
          inductionHypothesis earlierApart earlierLasting

end Stretches

end GraphStream

end ContactReplay
