import ContactReplay.Proofs.GraphStream.Capacity
import ContactReplay.Proofs.Pipeline.Telling
import ContactReplay.Proofs.Timeline.Intervals
import ContactReplay.Proofs.Timeline.LastStep

/-!
# Which timelines of contacts alternate

The events of a pair alternate in the timeline of contacts unless a contact lies wholly at the last
step and its pair has parted before (`ofContacts_inTurn_iff`).

* `Change.InTurn` says of the changes of a pair that they begin with an addition, alternate and end
  with a deletion.
* `Scribe.Knows` relates a scribe to past events.  It is enough to see that events that alternate
  are never refused for being out of turn, however many there are.
-/

namespace ContactReplay

/-! ## Changes in turn -/

/-- Changes that begin with an addition, alternate and end with a deletion. -/
def Change.InTurn : List Change → Prop
  | [] => True
  | .add :: .delete :: rest => InTurn rest
  | _ => False

theorem Change.Alternating.of_inTurn {changes : List Change} (inTurn : InTurn changes) :
    Alternating changes := by
  match changes with
  | [] => trivial
  | [.add] => trivial
  | .delete :: rest => exact inTurn.elim
  | .add :: .add :: rest => exact inTurn.elim
  | .add :: .delete :: rest =>
      have later : Alternating rest := of_inTurn inTurn
      exact later

/-- The changes of a pair are in turn. -/
def Timeline.InTurn (timeline : Timeline) (pair : Pair NodeName) : Prop :=
  Change.InTurn ((timeline.marksOf pair).map fun mark => mark.event.change)

namespace Mark

theorem inTurn_stretches_append (pair : Pair NodeName) (intervals : List Interval)
    (rest : List Change) :
    Change.InTurn ((intervals.flatMap (Interval.marks pair)).map (fun mark => mark.event.change) ++
      rest) ↔ Change.InTurn rest := by
  induction intervals with
  | nil => exact Iff.rfl
  | cons interval others inductionHypothesis => exact inductionHypothesis

theorem inTurn_outline (pair : Pair NodeName) (stretches : List Interval) :
    Change.InTurn ((outline pair stretches).map fun mark => mark.event.change) := by
  have alone := inTurn_stretches_append pair stretches.reverse []
  rw [List.append_nil] at alone
  exact alone.mpr trivial

theorem inTurn_finale_iff {pair : Pair NodeName} {latest : Interval} {earlier : List Interval} :
    Change.InTurn ((finale pair (latest :: earlier)).map fun mark => mark.event.change) ↔
      latest.stop = lastStep := by
  rw [finale]
  split
  · rename_i reaches
    exact iff_of_true (inTurn_outline pair _) reaches
  · rename_i parted
    rw [List.map_append, outline, inTurn_stretches_append]
    exact iff_of_false id parted

end Mark

/-! ## Contacts at the last step -/

/-- The latest stretch reaches the last step exactly if some interval does. -/
theorem Interval.sweep_reaches_iff {intervals earlier : List Interval} {latest : Interval}
    (orderly : Orderly intervals) (stretches : sweep intervals = latest :: earlier) :
    latest.stop = lastStep ↔ ∃ interval ∈ intervals, interval.stop = lastStep := by
  have covered := coverage_sweep orderly
  have swept := orderly.swept
  rw [stretches] at covered swept
  have reaches : ∀ interval : Interval,
      instant lastStep ∈ interval.instants ↔ interval.stop = lastStep := by
    intro interval
    constructor
    · exact fun inside => eq_lastStep_of_le (instant_le_instant.mp inside.2)
    · intro ends
      exact ⟨instant_le_instant.mpr (le_lastStep _),
        instant_le_instant.mpr (UInt64.le_of_eq ends.symm)⟩
  constructor
  · intro ends
    have inside : instant lastStep ∈ coverage (latest :: earlier) :=
      ⟨latest, List.mem_cons_self, (reaches latest).mpr ends⟩
    rw [covered] at inside
    obtain ⟨interval, member, holds⟩ := inside
    exact ⟨interval, member, (reaches interval).mp holds⟩
  · rintro ⟨interval, member, ends⟩
    have inside : instant lastStep ∈ coverage intervals :=
      ⟨interval, member, (reaches interval).mpr ends⟩
    rw [← covered] at inside
    obtain ⟨stretch, stretchMember, holds⟩ := inside
    rcases List.mem_cons.mp stretchMember with rfl | old
    · exact (reaches stretch).mp holds
    · have before := swept.ended_before old
      rw [(reaches stretch).mp holds] at before
      exact absurd before (not_lastStep_lt _)

namespace Merger.Closes

variable {merger : Merger} {contacts : List Contact}
  (closes : merger.Closes (Contact.early contacts) (Contact.late contacts))
include closes

/-- The changes of the pair of a contact at the last step are in turn exactly if another contact of
the pair lasts until then. -/
theorem inTurn_iff_of_late (positive : 0 < merger.pad)
    (sound : ∀ contact ∈ Contact.early contacts, contact.Sound) {contact : Contact}
    (member : contact ∈ Contact.late contacts) :
    merger.timeline.InTurn contact.pair ↔ ∃ known ∈ contacts, known.pair = contact.pair ∧
      known.start < lastStep ∧ (known.span merger.pad).stop = lastStep := by
  have orderly := Contact.spans_orderly positive sound (Contact.early_ordered contacts) contact.pair
  obtain ⟨latest, earlier, stretches⟩ :=
    List.exists_cons_of_ne_nil (closes.connected contact member)
  rw [Timeline.InTurn, merger.marksOf_timeline, closes.finished contact member, stretches,
    Mark.inTurn_finale_iff, Interval.sweep_reaches_iff orderly stretches]
  constructor
  · rintro ⟨interval, intervalMember, ends⟩
    obtain ⟨known, isEarly, same, rfl⟩ := Contact.mem_spans.mp intervalMember
    obtain ⟨listed, before⟩ := Contact.mem_early.mp isEarly
    exact ⟨known, listed, same, before, ends⟩
  · rintro ⟨known, listed, same, before, ends⟩
    have isEarly := Contact.mem_early.mpr ⟨listed, before⟩
    exact ⟨known.span merger.pad, Contact.mem_spans.mpr ⟨known, isEarly, same, rfl⟩, ends⟩

theorem inTurn_of_not_late {pair : Pair NodeName}
    (absent : ∀ contact ∈ Contact.late contacts, contact.pair ≠ pair) :
    merger.timeline.InTurn pair := by
  rw [Timeline.InTurn, merger.marksOf_timeline, closes.outlined pair absent]
  exact Mark.inTurn_outline pair _

/-- The changes of all pairs are in turn exactly if every contact at the last step finds its pair
connected. -/
theorem forall_inTurn_iff (positive : 0 < merger.pad)
    (sound : ∀ contact ∈ Contact.early contacts, contact.Sound) :
    (∀ pair, merger.timeline.InTurn pair) ↔
      ∀ contact ∈ contacts, contact.start = lastStep → ∃ known ∈ contacts,
        known.pair = contact.pair ∧ known.start < lastStep ∧
          (known.span merger.pad).stop = lastStep := by
  constructor
  · intro inTurn contact listed begins
    have member := Contact.mem_late.mpr ⟨listed, begins⟩
    exact (closes.inTurn_iff_of_late positive sound member).mp (inTurn contact.pair)
  · intro lasting pair
    by_cases known : ∃ contact ∈ Contact.late contacts, contact.pair = pair
    · obtain ⟨contact, member, rfl⟩ := known
      obtain ⟨listed, begins⟩ := Contact.mem_late.mp member
      exact (closes.inTurn_iff_of_late positive sound member).mpr (lasting contact listed begins)
    · exact closes.inTurn_of_not_late fun contact member same => known ⟨contact, member, same⟩

end Merger.Closes

/-! ## Writing events in turn -/

namespace GraphStream

/-- Events of one pair can follow one another exactly if its changes alternate. -/
theorem alternates_iff_alternating {pair : Pair NodeName} {past events : List Event}
    (about : ∀ event ∈ events, event.pair = pair) (apart : openNumber? pair past = none) :
    Alternates past events ↔ Change.Alternating (events.map Event.change) := by
  match events with
  | [] => exact Iff.rfl
  | [⟨.add, other⟩] =>
      obtain rfl : other = pair := about _ List.mem_cons_self
      exact iff_of_true ⟨apart, trivial⟩ trivial
  | ⟨.delete, other⟩ :: rest =>
      obtain rfl : other = pair := about _ List.mem_cons_self
      refine iff_of_false ?_ id
      rintro ⟨⟨number, connected⟩, -⟩
      cases apart.symm.trans connected
  | ⟨.add, first⟩ :: ⟨.add, second⟩ :: rest =>
      obtain rfl : first = pair := about _ List.mem_cons_self
      obtain rfl : second = first := about _ (List.mem_cons_of_mem _ List.mem_cons_self)
      refine iff_of_false ?_ id
      rintro ⟨-, stillApart, -⟩
      cases (openNumber?_cons_add _ past).symm.trans stillApart
  | ⟨.add, first⟩ :: ⟨.delete, second⟩ :: rest =>
      obtain rfl : first = pair := about _ List.mem_cons_self
      obtain rfl : second = first := about _ (List.mem_cons_of_mem _ List.mem_cons_self)
      have later := alternates_iff_alternating
        (fun event member => about event (List.mem_cons_of_mem _ (List.mem_cons_of_mem _ member)))
        (openNumber?_cons_delete second (⟨.add, second⟩ :: past))
      constructor
      · rintro ⟨-, -, restAlternates⟩
        exact later.mp restAlternates
      · intro restAlternating
        exact ⟨apart, ⟨_, openNumber?_cons_add _ past⟩, later.mpr restAlternating⟩

namespace Scribe

/-- A scribe knows which pairs are connected after past events. -/
def Knows (scribe : Scribe) (past : List Event) : Prop :=
  ∀ pair, (scribe.opened.get? pair).isSome = (openNumber? pair past).isSome

theorem Knows.writeEvent {scribe : Scribe} {past : List Event} (knows : scribe.Knows past)
    {event : Event} (possible : CanFollow past event) :
    ∃ line next, scribe.writeEvent event = .ok (line, next) ∧ next.Knows (event :: past) := by
  obtain ⟨change, pair⟩ := event
  have known := knows pair
  rw [canFollow_iff] at possible
  dsimp only at possible
  rw [possible] at known
  cases change with
  | add =>
      have absent : scribe.opened.get? pair = none := by simpa using known
      simp only [Scribe.writeEvent, absent]
      refine ⟨_, _, rfl, fun other => ?_⟩
      dsimp only
      by_cases same : other = pair
      · subst same
        rw [Table.get?_insert_self, openNumber?_cons_add]
        rfl
      · rw [Table.get?_insert_of_ne _ _ same, openNumber?_cons_of_ne (Ne.symm same)]
        exact knows other
  | delete =>
      obtain ⟨edge, found⟩ := Option.isSome_iff_exists.mp (known.trans (by rfl))
      simp only [Scribe.writeEvent, found]
      refine ⟨_, _, rfl, fun other => ?_⟩
      dsimp only
      by_cases same : other = pair
      · subst same
        rw [Table.get?_erase_self, openNumber?_cons_delete]
        rfl
      · rw [Table.get?_erase_of_ne _ same, openNumber?_cons_of_ne (Ne.symm same)]
        exact knows other

end Scribe

/-- The event of an entry. -/
def Entry.event? : Entry → Option Event
  | .step _ => none
  | .event change => some change

theorem filterMap_event?_entries (timeline : Timeline) :
    timeline.entries.filterMap Entry.event? = timeline.events := by
  have each : ∀ moment : Moment,
      (Entry.ofMoment moment).filterMap Entry.event? = moment.events := by
    intro moment
    rw [Entry.ofMoment, List.filterMap_cons_none rfl, List.filterMap_map]
    exact List.filterMap_some
  rw [Timeline.entries, Timeline.events, List.filterMap_flatMap]
  exact congrArg (List.flatMap · timeline.moments) (funext each)

/-- Events that alternate are refused for nothing but a step that cannot be shifted. -/
theorem Scribe.Knows.unshiftable_of_error {scribe : Scribe} {past : List Event}
    (knows : scribe.Knows past) {entries : List Entry}
    (alternates : Alternates past (entries.filterMap Entry.event?)) {cause : InvariantError}
    (failed : (scribe.writeEntries entries).2 = .error cause) :
    ∃ step, cause = .unshiftableStep step := by
  induction entries generalizing scribe past with
  | nil => cases failed
  | cons entry rest inductionHypothesis =>
      cases entry with
      | step step =>
          by_cases shiftable : step.toNat + scribe.offset.toNat < UInt64.size
          · rw [writeEntries_cons_ok (writeEntry_step shiftable)] at failed
            have later : Knows { scribe with step := step + scribe.offset } past := knows
            exact inductionHypothesis later alternates failed
          · rw [writeEntries, writeEntry, if_neg shiftable] at failed
            exact ⟨step, (Except.error.inj failed).symm⟩
      | event event =>
          obtain ⟨possible, restAlternates⟩ := alternates
          obtain ⟨line, next, written, nextKnows⟩ := knows.writeEvent possible
          have entryWritten : scribe.writeEntry (.event event) = .ok (line, next) := written
          rw [writeEntries_cons_ok entryWritten] at failed
          exact inductionHypothesis nextKnows restAlternates failed

end GraphStream

namespace Timeline

open GraphStream

/-- The events of a timeline can follow one another exactly if the changes of each pair
alternate. -/
theorem alternates_iff {timeline : Timeline} : Alternates [] timeline.events ↔
    ∀ pair, Change.Alternating ((timeline.marksOf pair).map fun mark => mark.event.change) := by
  have single : ∀ pair, Alternates [] (eventsOf pair timeline.events) ↔
      Change.Alternating ((timeline.marksOf pair).map fun mark => mark.event.change) := by
    intro pair
    have about : ∀ event ∈ eventsOf pair timeline.events, event.pair = pair :=
      fun event member => of_decide_eq_true (List.mem_filter.mp member).2
    rw [alternates_iff_alternating about rfl, eventsOf_events, List.map_map]
    rfl
  constructor
  · exact fun alternates pair => (single pair).mp (alternates.eventsOf pair)
  · exact fun alternating => alternates_of_eventsOf fun pair => (single pair).mpr (alternating pair)

theorem alternates_of_forall_inTurn {timeline : Timeline}
    (inTurn : ∀ pair, timeline.InTurn pair) : Alternates [] timeline.events :=
  alternates_iff.mpr fun pair => .of_inTurn (inTurn pair)

/-- An event is refused because it is out of turn. -/
def OutOfTurn (cause : InvariantError) : Prop :=
  ∃ pair step, cause = .addWhileOpen pair step ∨ cause = .deleteWhileClosed pair step

theorem error_of_sinkWrite {sink : Sink} {text : String} {error : Error}
    (failed : (sink.write text).1 = .error error) : error = .device .sinkFull := by
  rw [Sink.write] at failed
  split at failed
  · cases failed
  · split at failed
    · cases failed
    · exact (Except.error.inj failed).symm

/-- Writing breaks no rule that the manuscript keeps: a sink only lacks room. -/
theorem outcome_of_write_error {timeline : Timeline} {graphName : String} {sink : Sink}
    {cause : InvariantError}
    (failed : (timeline.write graphName sink).1 = .error (.invariant cause)) :
    (timeline.manuscript graphName).outcome = .error (.invariant cause) := by
  rw [write_eq] at failed
  split at failed
  · exact failed
  · rename_i error full refused
    have lacking := error_of_sinkWrite (congrArg Prod.fst refused)
    rw [lacking] at failed
    cases failed

theorem not_outOfTurn_of_write_error {timeline : Timeline} (inTurn : ∀ pair, timeline.InTurn pair)
    {graphName : String} {sink : Sink} {cause : InvariantError}
    (failed : (timeline.write graphName sink).1 = .error (.invariant cause)) :
    ¬OutOfTurn cause := by
  have outcome := outcome_of_write_error failed
  have knows : Scribe.Knows { offset := timeline.offset } [] := fun _ => rfl
  have alternates := alternates_of_forall_inTurn inTurn
  rw [← filterMap_event?_entries] at alternates
  rw [manuscript] at outcome
  split at outcome
  · cases outcome
  · split at outcome
    · cases outcome
      rintro ⟨pair, step, shared | shared⟩ <;> cases shared
    · dsimp only at outcome
      split at outcome
      · rename_i refusal refused
        cases outcome
        obtain ⟨late, unshiftable⟩ := knows.unshiftable_of_error alternates refused
        rintro ⟨pair, step, turn | turn⟩ <;> cases unshiftable.symm.trans turn
      · cases outcome

end Timeline

/-- The timeline of contacts ascends, and it alternates exactly if every contact at the last step
finds its pair connected until then; if it alternates, no event is refused for being out of
turn. -/
theorem ofContacts_inTurn_iff {contacts : List Contact} {pad : UInt64} {timeline : Timeline}
    (merged : Timeline.ofContacts contacts pad = .ok timeline) :
    timeline.moments.Pairwise (fun earlier later => earlier.step < later.step) ∧
      ((∀ pair, timeline.InTurn pair) ↔
        ∀ contact ∈ contacts, contact.start = lastStep → ∃ known ∈ contacts,
          known.pair = contact.pair ∧ known.start < lastStep ∧
            (known.span pad).stop = lastStep) ∧
      ((∀ pair, timeline.InTurn pair) → ∀ graphName sink pair step,
        (timeline.write graphName sink).1 ≠ .error (.invariant (.addWhileOpen pair step)) ∧
        (timeline.write graphName sink).1 ≠
          .error (.invariant (.deleteWhileClosed pair step))) := by
  obtain ⟨merger, rfl, rfl, positive, sound, closes⟩ := closes_of_ofContacts merged
  refine ⟨Mark.moments_ascending closes.sorted, closes.forall_inTurn_iff positive sound, ?_⟩
  intro inTurn graphName sink pair step
  constructor
  · exact fun failed => Timeline.not_outOfTurn_of_write_error inTurn failed
      ⟨pair, step, Or.inl rfl⟩
  · exact fun failed => Timeline.not_outOfTurn_of_write_error inTurn failed
      ⟨pair, step, Or.inr rfl⟩

/-- Contacts that are given in order are merged as they come. -/
theorem ofContacts_of_ordered {contacts : List Contact} {pad : UInt64}
    (ordered : contacts.Pairwise fun first second => (first.order second).isLE) :
    Timeline.ofContacts contacts pad =
      (Merger.start pad >>= (Merger.feedAll · contacts)).map Merger.timeline := by
  rw [Timeline.ofContacts, List.mergeSort_of_pairwise ordered]
  rcases Merger.start pad with cause | merger
  · rfl
  · rcases fed : merger.feedAll contacts with cause | full
    · simp [bind, Except.bind, fed, Except.map]
    · simp [bind, Except.bind, fed, Except.map, pure, Except.pure]

/-- A pair that stays connected until a contact at the last step, and another one that parts
there. -/
theorem ofContacts_inTurn_iff_lasting :
    let contacts : List Contact :=
      [⟨.text "a", .text "b", 7, 7⟩,
        ⟨.text "a", .text "c", 18446744073709551610, 18446744073709551615⟩,
        ⟨.text "c", .text "a", 18446744073709551615, 18446744073709551615⟩]
    ∃ timeline, Timeline.ofContacts contacts 10 = .ok timeline ∧
      timeline.moments.Pairwise (fun earlier later => earlier.step < later.step) ∧
      ((∀ pair, timeline.InTurn pair) ↔
        ∀ contact ∈ contacts, contact.start = lastStep → ∃ known ∈ contacts,
          known.pair = contact.pair ∧ known.start < lastStep ∧
            (known.span 10).stop = lastStep) ∧
      ((∀ pair, timeline.InTurn pair) → ∀ graphName sink pair step,
        (timeline.write graphName sink).1 ≠ .error (.invariant (.addWhileOpen pair step)) ∧
        (timeline.write graphName sink).1 ≠
          .error (.invariant (.deleteWhileClosed pair step))) := by
  intro contacts
  have ordered : contacts.Pairwise fun first second => (first.order second).isLE := by decide
  have accepted : (Timeline.ofContacts contacts 10).isOk = true := by
    rw [ofContacts_of_ordered ordered]
    decide +kernel
  cases merged : Timeline.ofContacts contacts 10 with
  | ok timeline => exact ⟨timeline, rfl, ofContacts_inTurn_iff merged⟩
  | error cause =>
      rw [merged] at accepted
      cases accepted

/-- A pair that parts and meets again at the last step is added twice in a row, and the timeline
cannot be written. -/
theorem exists_not_inTurn :
    let contacts : List Contact := [⟨.text "a", .text "b", 1, 5⟩,
      ⟨.text "a", .text "b", 18446744073709551615, 18446744073709551615⟩]
    let pair : Pair NodeName := .of (.text "a") (.text "b")
    ∃ timeline, Timeline.ofContacts contacts 10 = .ok timeline ∧ ¬timeline.InTurn pair ∧
      (timeline.write "g" {}).1 =
        .error (.invariant (.addWhileOpen pair 18446744073709551615)) := by
  intro contacts pair
  have ordered : contacts.Pairwise fun first second => (first.order second).isLE := by decide
  refine ⟨⟨Table.ofList [(.text "a", ()), (.text "b", ())], [⟨1, [⟨.add, pair⟩]⟩,
    ⟨18446744073709551615, [⟨.add, pair⟩, ⟨.delete, pair⟩]⟩]⟩, ?_, id, by decide +kernel⟩
  rw [ofContacts_of_ordered ordered]
  decide +kernel

end ContactReplay
