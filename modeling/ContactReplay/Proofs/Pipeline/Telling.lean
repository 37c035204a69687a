import ContactReplay.Proofs.Pipeline.Connections

/-!
# Timelines that tell of contacts

A timeline that tells of contacts can be written and read again as long as its counts and its steps
are small enough and the labels of the nodes can be told apart.  `isSome_openNumber?_iff` says when
a pair is connected after the events of a step: exactly if a component of what its contacts cover
holds the step and does not end there.
-/

namespace ContactReplay

namespace Contact

/-- The names of the nodes that meet in contacts. -/
def names (contacts : List Contact) : List NodeName :=
  contacts.flatMap fun contact => [contact.observer, contact.observed]

/-- Contacts of different nodes whose labels can be written and told apart. -/
structure Legible (contacts : List Contact) : Prop where
  different : ∀ contact ∈ contacts, contact.observer ≠ contact.observed
  distinct : ∀ first ∈ names contacts, ∀ second ∈ names contacts,
    first.label = second.label → first = second
  tokens : ∀ name ∈ names contacts, Text.isToken name.label.toList = true
  undirected : ∀ name ∈ names contacts, name.label ≠ ">" ∧ name.label ≠ "<"

instance (contacts : List Contact) : Decidable (Legible contacts) :=
  decidable_of_iff
    ((∀ contact ∈ contacts, contact.observer ≠ contact.observed) ∧
      (∀ first ∈ names contacts, ∀ second ∈ names contacts,
        first.label = second.label → first = second) ∧
      (∀ name ∈ names contacts, Text.isToken name.label.toList = true) ∧
      ∀ name ∈ names contacts, name.label ≠ ">" ∧ name.label ≠ "<")
    ⟨fun ⟨different, distinct, tokens, undirected⟩ => ⟨different, distinct, tokens, undirected⟩,
      fun ⟨different, distinct, tokens, undirected⟩ => ⟨different, distinct, tokens, undirected⟩⟩

theorem mem_names {contacts : List Contact} {name : NodeName} :
    name ∈ names contacts ↔ ∃ contact ∈ contacts, name = contact.observer ∨ name = contact.observed
    := by
  simp [names]

theorem ends_mem_names {contacts : List Contact} {contact : Contact} (member : contact ∈ contacts) :
    contact.pair.low ∈ names contacts ∧ contact.pair.high ∈ names contacts := by
  rw [mem_names, mem_names]
  rcases Pair.of_eq_or contact.observer contact.observed with ⟨low, high⟩ | ⟨low, high⟩
  · exact ⟨⟨contact, member, Or.inl low⟩, contact, member, Or.inr high⟩
  · exact ⟨⟨contact, member, Or.inr low⟩, contact, member, Or.inl high⟩

theorem low_ne_high {contact : Contact} (different : contact.observer ≠ contact.observed) :
    contact.pair.low ≠ contact.pair.high := by
  intro same
  rcases Pair.of_eq_or contact.observer contact.observed with ⟨low, high⟩ | ⟨low, high⟩
  · exact different (low.symm.trans (same.trans high))
  · exact different (high.symm.trans (same.symm.trans low))

theorem Legible.label_ne {contacts : List Contact} (legible : Legible contacts) {contact : Contact}
    (member : contact ∈ contacts) : contact.pair.low.label ≠ contact.pair.high.label := by
  obtain ⟨lowMember, highMember⟩ := ends_mem_names member
  intro sameLabel
  exact low_ne_high (legible.different contact member)
    (legible.distinct _ lowMember _ highMember sameLabel)

end Contact

/-! ## Moments up to a step -/

theorem take_eq_filter {moments : List Moment}
    (ascending : moments.Pairwise fun earlier later => earlier.step < later.step) {place : Nat}
    {moment : Moment} (found : moments[place]? = some moment) :
    moments.take (place + 1) = moments.filter fun other => other.step ≤ moment.step := by
  induction moments generalizing place with
  | nil => simp at found
  | cons first rest inductionHypothesis =>
      obtain ⟨before, restAscending⟩ := List.pairwise_cons.mp ascending
      cases place with
      | zero =>
          obtain rfl : first = moment := by simpa using found
          have later : ∀ other ∈ rest, ¬ other.step ≤ first.step := fun other member =>
            UInt64.not_le.mpr (before other member)
          simpa using later
      | succ earlier =>
          rw [List.getElem?_cons_succ] at found
          have kept : first.step ≤ moment.step :=
            UInt64.le_of_lt (before moment (List.mem_of_getElem? found))
          rw [List.take_succ_cons, inductionHypothesis restAscending found,
            List.filter_cons_of_pos (by simpa using kept)]

theorem length_le_of_occupied {moments : List Moment}
    (occupied : ∀ moment ∈ moments, moment.events ≠ []) :
    moments.length ≤ (moments.flatMap (·.events)).length := by
  induction moments with
  | nil => exact Nat.le_refl _
  | cons moment rest inductionHypothesis =>
      obtain ⟨nonempty, restOccupied⟩ := List.forall_mem_cons.mp occupied
      have some := List.length_pos_iff.mpr nonempty
      have others := inductionHypothesis restOccupied
      rw [List.flatMap_cons, List.length_append, List.length_cons]
      omega

namespace Timeline

open GraphStream

theorem eventsOf_events (timeline : Timeline) (pair : Pair NodeName) :
    eventsOf pair timeline.events = (timeline.marksOf pair).map (·.event) := by
  have all : timeline.events = timeline.marks.map (·.event) :=
    (Moment.map_event_marks timeline.moments).symm
  rw [all, eventsOf, marksOf, List.filter_map]
  rfl

theorem mem_events_iff {timeline : Timeline} {event : Event} :
    event ∈ timeline.events ↔ ∃ step, ⟨step, event⟩ ∈ timeline.marksOf event.pair := by
  have own : event ∈ timeline.events ↔ event ∈ eventsOf event.pair timeline.events := by
    simp [eventsOf]
  rw [own, eventsOf_events, List.mem_map]
  constructor
  · rintro ⟨mark, member, rfl⟩
    exact ⟨mark.step, member⟩
  · rintro ⟨step, member⟩
    exact ⟨_, member, rfl⟩

/-- Different nodes have different labels, so no number is written like a text. -/
theorem sharedLabel?_eq_none_of_injective {timeline : Timeline}
    (distinct : ∀ first ∈ timeline.nodes.keys, ∀ second ∈ timeline.nodes.keys,
      first.label = second.label → first = second) : timeline.sharedLabel? = none := by
  rw [sharedLabel?, List.findSome?_eq_none_iff]
  intro first firstMember
  cases first with
  | number value => rfl
  | text content =>
      rw [List.findSome?_eq_none_iff]
      intro second secondMember
      cases second with
      | text other => rfl
      | number value =>
          dsimp only
          rw [if_neg]
          intro sameLabel
          cases distinct _ secondMember (.text content) firstMember sameLabel

/-- How much later steps are written: one step if there is a step zero. -/
def shift (timeline : Timeline) : Nat :=
  if ∃ moment ∈ timeline.moments, moment.step = 0 then 1 else 0

/-- What the machine words of a graph stream and of a testbed have room for. -/
structure Fits (timeline : Timeline) : Prop where
  shiftable : ∀ moment ∈ timeline.moments, moment.step.toNat + timeline.shift < UInt64.size
  additions : additions timeline.events < UInt32.size
  nodes : timeline.nodes.size < UInt32.size - 2

instance (timeline : Timeline) : Decidable timeline.Fits :=
  decidable_of_iff
    ((∀ moment ∈ timeline.moments, moment.step.toNat + timeline.shift < UInt64.size) ∧
      GraphStream.additions timeline.events < UInt32.size ∧
      timeline.nodes.size < UInt32.size - 2)
    ⟨fun ⟨shiftable, additions, nodes⟩ => ⟨shiftable, additions, nodes⟩,
      fun ⟨shiftable, additions, nodes⟩ => ⟨shiftable, additions, nodes⟩⟩

namespace Tells

variable {timeline : Timeline} {contacts : List Contact} {pad : UInt64}
  (tells : timeline.Tells contacts pad)
include tells

/-! ## Alternation and counts -/

theorem alternates : Alternates [] timeline.events := by
  apply alternates_of_eventsOf
  intro pair
  obtain ⟨stretches, outlines⟩ := tells.outlines pair
  rw [eventsOf_events, outlines.marks]
  exact alternates_stretchEvents pair stretches

theorem length_events : timeline.events.length = 2 * additions timeline.events := by
  apply length_eq_two_mul_additions
  intro pair
  obtain ⟨stretches, outlines⟩ := tells.outlines pair
  rw [eventsOf_events, outlines.marks]
  exact deletions_stretchEvents pair stretches

theorem counts_lt (fits : timeline.Fits) :
    timeline.stepCount < UInt64.size ∧ timeline.lineCount < UInt64.size := by
  have additions := fits.additions
  have nodes := fits.nodes
  have length := tells.length_events
  have moments : timeline.moments.length ≤ timeline.events.length :=
    length_le_of_occupied tells.occupied
  rw [stepCount, lineCount, eventCount_eq]
  simp only [UInt32.size, UInt64.size] at additions nodes ⊢
  omega

/-! ## Contacts and events -/

theorem exists_contact {event : Event} (member : event ∈ timeline.events) :
    ∃ contact ∈ contacts, contact.pair = event.pair := by
  obtain ⟨stretches, outlines⟩ := tells.outlines event.pair
  obtain ⟨step, marked⟩ := mem_events_iff.mp member
  rw [outlines.marks] at marked
  obtain ⟨stretch, stretchMember, -⟩ := List.mem_flatMap.mp marked
  rw [List.mem_reverse] at stretchMember
  have lasts := UInt64.le_of_lt (outlines.lasting stretch stretchMember)
  have covered := Interval.instants_subset_coverage stretchMember
    (Interval.start_mem_instants lasts)
  rw [outlines.coverage] at covered
  obtain ⟨span, spanMember, -⟩ := covered
  obtain ⟨contact, contactMember, same, -⟩ := Contact.mem_spans.mp spanMember
  exact ⟨contact, contactMember, same⟩

theorem add_mem_events (positive : 0 < pad) {contact : Contact} (sound : contact.Sound)
    (member : contact ∈ contacts) : ⟨.add, contact.pair⟩ ∈ timeline.events := by
  obtain ⟨stretches, outlines⟩ := tells.outlines contact.pair
  have spanMember : contact.span pad ∈ Contact.spans pad contact.pair contacts :=
    Contact.mem_spans.mpr ⟨contact, member, rfl, rfl⟩
  have lasts := UInt64.le_of_lt (Contact.span_lasting positive sound)
  have covered := Interval.instants_subset_coverage spanMember (Interval.start_mem_instants lasts)
  rw [← outlines.coverage] at covered
  obtain ⟨stretch, stretchMember, -⟩ := covered
  have marked : ⟨stretch.start, .add, contact.pair⟩ ∈ timeline.marksOf contact.pair := by
    rw [outlines.marks]
    exact List.mem_flatMap.mpr ⟨stretch, List.mem_reverse.mpr stretchMember, List.mem_cons_self⟩
  exact mem_events_iff.mpr ⟨stretch.start, marked⟩

/-- There is a moment exactly where a component of what the contacts of a pair cover begins or
ends. -/
theorem exists_moment_iff (step : UInt64) :
    (∃ moment ∈ timeline.moments, moment.step = step) ↔
      ∃ contact ∈ contacts, ∃ interval,
        Interval.IsComponent (Contact.spans pad contact.pair contacts) interval ∧
        (step = interval.start ∨ step = interval.stop) := by
  constructor
  · rintro ⟨moment, member, rfl⟩
    obtain ⟨event, eventMember⟩ := List.exists_mem_of_ne_nil _ (tells.occupied moment member)
    obtain ⟨contact, contactMember, same⟩ :=
      tells.exists_contact (List.mem_flatMap.mpr ⟨moment, member, eventMember⟩)
    obtain ⟨components, own, -, isComponent⟩ := tells.exists_components event.pair
    have marked : ⟨moment.step, event⟩ ∈ timeline.marksOf event.pair := by
      refine List.mem_filter.mpr ⟨?_, decide_eq_true rfl⟩
      exact List.mem_flatMap.mpr ⟨moment, member, List.mem_map_of_mem eventMember⟩
    rw [own] at marked
    obtain ⟨interval, listed, isEnd⟩ := List.mem_flatMap.mp marked
    refine ⟨contact, contactMember, interval, ?_, ?_⟩
    · rw [same]
      exact (isComponent interval).mp listed
    · simp only [Interval.marks, List.mem_cons, List.not_mem_nil, or_false, Mark.mk.injEq] at isEnd
      exact isEnd.imp And.left And.left
  · rintro ⟨contact, -, interval, component, isEnd⟩
    obtain ⟨components, own, -, isComponent⟩ := tells.exists_components contact.pair
    have listed := (isComponent interval).mpr component
    have marked : ∃ event, ⟨step, event⟩ ∈ timeline.marksOf contact.pair := by
      rw [own]
      rcases isEnd with rfl | rfl
      · exact ⟨⟨.add, contact.pair⟩, List.mem_flatMap.mpr ⟨interval, listed, List.mem_cons_self⟩⟩
      · exact ⟨⟨.delete, contact.pair⟩,
          List.mem_flatMap.mpr ⟨interval, listed, List.mem_cons_of_mem _ List.mem_cons_self⟩⟩
    obtain ⟨event, marked⟩ := marked
    obtain ⟨moment, member, among⟩ := List.mem_flatMap.mp (List.mem_filter.mp marked).1
    exact ⟨moment, member, (Moment.step_of_mem_marks among).symm⟩

/-- After the events of a step a pair is connected exactly if a component of what its contacts cover
holds the step and does not end there. -/
theorem isSome_openNumber?_iff {place : Nat} {moment : Moment}
    (found : timeline.moments[place]? = some moment) (pair : Pair NodeName) :
    (openNumber? pair
        ((timeline.moments.take (place + 1)).flatMap (·.events)).reverse).isSome = true ↔
      ∃ interval, Interval.IsComponent (Contact.spans pad pair contacts) interval ∧
        interval.start ≤ moment.step ∧ moment.step < interval.stop := by
  obtain ⟨stretches, outlines⟩ := tells.outlines pair
  have played := eventsOf_events ⟨timeline.nodes, timeline.moments.take (place + 1)⟩ pair
  have own := outlines.marks
  simp only [events, marksOf, marks] at played own
  rw [← isSome_openNumber?_eventsOf, eventsOf, List.filter_reverse, ← eventsOf, played,
    take_eq_filter tells.ascending found, Moment.marks_filter (· ≤ moment.step), List.filter_comm,
    own, isSome_openNumber?_outline outlines.apart outlines.lasting]
  simp only [outlines.mem_iff_isComponent]

/-! ## Writing and reading -/

theorem mem_keys_iff (name : NodeName) :
    name ∈ timeline.nodes.keys ↔ name ∈ Contact.names contacts := by
  rw [tells.nodes, Contact.mem_names]

theorem legible (legible : Contact.Legible contacts) : timeline.Legible where
  nodes node member := legible.tokens node ((tells.mem_keys_iff node).mp member)
  events event member := by
    obtain ⟨contact, contactMember, same⟩ := tells.exists_contact member
    obtain ⟨lowMember, highMember⟩ := Contact.ends_mem_names contactMember
    have different := legible.label_ne contactMember
    rw [same] at lowMember highMember different
    refine ⟨legible.tokens _ lowMember, legible.tokens _ highMember, ?_, different⟩
    rw [List.forall_mem_cons, List.forall_mem_singleton]
    exact ⟨legible.undirected _ lowMember, legible.undirected _ highMember⟩

theorem sharedLabel?_eq_none (legible : Contact.Legible contacts) :
    timeline.sharedLabel? = none :=
  sharedLabel?_eq_none_of_injective fun _ firstMember _ secondMember =>
    legible.distinct _ ((tells.mem_keys_iff _).mp firstMember) _
      ((tells.mem_keys_iff _).mp secondMember)

/-- A step zero is the first one. -/
theorem toNat_offset : timeline.offset.toNat = timeline.shift := by
  have ascending := tells.ascending
  rw [offset, shift]
  cases shape : timeline.moments with
  | nil => simp
  | cons first rest =>
      rw [shape] at ascending
      by_cases zero : first.step = 0
      · simp [zero]
      · have later : ∀ moment ∈ rest, moment.step ≠ 0 := by
          intro moment member atZero
          have before := List.rel_of_pairwise_cons ascending member
          rw [atZero] at before
          exact UInt64.not_lt_zero before
        simpa [zero] using later

theorem shiftable (fits : timeline.Fits) : ∀ moment ∈ timeline.moments,
    moment.step.toNat + timeline.offset.toNat < UInt64.size := by
  rw [tells.toNat_offset]
  exact fits.shiftable

theorem writable (legible : Contact.Legible contacts) (fits : timeline.Fits) {graphName : String}
    (token : Text.isToken graphName.toList = true) : timeline.Writable graphName :=
  ⟨token, tells.sharedLabel?_eq_none legible, tells.shiftable fits, tells.alternates⟩

/-- What is written of the timeline is read as its document. -/
theorem exists_text (legible : Contact.Legible contacts) (fits : timeline.Fits)
    {graphName : String} (token : Text.isToken graphName.toList = true)
    (spoken : graphName.toList.head? ≠ some '#') :
    ∃ text, timeline.graphText graphName = .ok text ∧
      Document.read text = .ok (timeline.document graphName) := by
  obtain ⟨stepsFit, linesFit⟩ := tells.counts_lt fits
  have writable := tells.writable legible fits token
  exact ⟨_, graphText_of_writable fits.additions writable,
    read_joinLines_words tells.ascending (tells.legible legible) spoken stepsFit linesFit writable⟩

end Tells

end Timeline

end ContactReplay
