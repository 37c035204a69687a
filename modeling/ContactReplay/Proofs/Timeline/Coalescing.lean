import ContactReplay.Proofs.Timeline.Outline

/-!
# What contacts are merged to

A merger that takes contacts in the order of their starts in holds, for every pair, the marks of
the components of what the contacts of that pair cover:

* `Contact.span` is the time that a contact stands for, and `Contact.spans` lists the spans of the
  contacts of a pair;
* `Merger.Records` relates a merger to the contacts that it has taken in, and `Records.feed` says
  that taking the next one in keeps the relation and never fails;
* `Timeline.Tells` says what the timeline of contacts tells of them;
* `ofContacts_marks_components` is the result for a list of contacts in any order.
-/

namespace ContactReplay

/-! ## Spans -/

theorem toNat_saturatingAdd (first second : UInt64) :
    (saturatingAdd first second).toNat = min (first.toNat + second.toNat) (2 ^ 64 - 1) := by
  have firstBound := first.toNat_lt
  have secondBound := second.toNat_lt
  rw [saturatingAdd]
  split
  · rename_i fits
    rw [UInt64.toNat_add, Nat.mod_eq_of_lt fits]
    have : UInt64.size = 2 ^ 64 := rfl
    omega
  · rename_i tooLarge
    have : UInt64.size = 2 ^ 64 := rfl
    have largest : (0 - 1 : UInt64).toNat = 2 ^ 64 - 1 := by decide
    rw [largest]
    omega

namespace Contact

/-- The time that a contact stands for; one without duration is made longer by the pad. -/
def span (pad : UInt64) (contact : Contact) : Interval :=
  ⟨contact.start,
    if contact.start < contact.stop then contact.stop else saturatingAdd contact.start pad⟩

/-- The spans of the contacts of a pair. -/
def spans (pad : UInt64) (pair : Pair NodeName) (contacts : List Contact) : List Interval :=
  (contacts.filter fun contact => contact.pair = pair).map (span pad)

theorem mem_spans {pad : UInt64} {pair : Pair NodeName} {contacts : List Contact}
    {interval : Interval} : interval ∈ spans pad pair contacts ↔
      ∃ contact ∈ contacts, contact.pair = pair ∧ contact.span pad = interval := by
  simp [spans, and_assoc]

/-- A contact that does not end before it begins and does not lie wholly at the last step. -/
structure Sound (contact : Contact) : Prop where
  forward : contact.start ≤ contact.stop
  bounded : ¬ (contact.start.toNat = 2 ^ 64 - 1 ∧ contact.stop.toNat = 2 ^ 64 - 1)

instance (contact : Contact) : Decidable contact.Sound :=
  decidable_of_iff
    (contact.start ≤ contact.stop ∧
      ¬ (contact.start.toNat = 2 ^ 64 - 1 ∧ contact.stop.toNat = 2 ^ 64 - 1))
    ⟨fun ⟨forward, bounded⟩ => ⟨forward, bounded⟩, fun sound => ⟨sound.forward, sound.bounded⟩⟩

theorem span_lasting {pad : UInt64} (positive : 0 < pad) {contact : Contact}
    (sound : contact.Sound) : (contact.span pad).start < (contact.span pad).stop := by
  rw [span]
  split
  · rename_i lasting
    exact lasting
  · rename_i instantaneous
    have same : contact.start = contact.stop :=
      UInt64.le_antisymm sound.forward (UInt64.not_lt.mp instantaneous)
    have notLast : contact.start.toNat ≠ 2 ^ 64 - 1 := fun last =>
      sound.bounded ⟨last, same ▸ last⟩
    have startBound := contact.start.toNat_lt
    have padPositive : 0 < pad.toNat := UInt64.lt_iff_toNat_lt.mp positive
    rw [UInt64.lt_iff_toNat_lt]
    dsimp only
    rw [toNat_saturatingAdd]
    omega

theorem spans_concat_self {pad : UInt64} (contacts : List Contact) (contact : Contact) :
    spans pad contact.pair (contacts ++ [contact]) =
      spans pad contact.pair contacts ++ [contact.span pad] := by
  simp [spans, List.filter_append]

theorem spans_concat_of_ne {pad : UInt64} {pair : Pair NodeName} (contacts : List Contact)
    {contact : Contact} (different : pair ≠ contact.pair) :
    spans pad pair (contacts ++ [contact]) = spans pad pair contacts := by
  simp [spans, List.filter_append, different.symm]

theorem spans_orderly {pad : UInt64} (positive : 0 < pad) {contacts : List Contact}
    (sound : ∀ contact ∈ contacts, contact.Sound)
    (ordered : contacts.Pairwise fun earlier later => earlier.start ≤ later.start)
    (pair : Pair NodeName) : Interval.Orderly (spans pad pair contacts) where
  ordered := List.pairwise_map.mpr (ordered.filter _)
  lasting interval member := by
    obtain ⟨contact, contactMember, rfl⟩ := List.mem_map.mp member
    exact span_lasting positive (sound contact (List.mem_filter.mp contactMember).1)

theorem start_le_of_mem_spans {pad bound : UInt64} {contacts : List Contact}
    (bounded : ∀ contact ∈ contacts, contact.start ≤ bound) {pair : Pair NodeName} :
    ∀ interval ∈ spans pad pair contacts, interval.start ≤ bound := by
  intro interval member
  obtain ⟨contact, contactMember, -, rfl⟩ := mem_spans.mp member
  exact bounded contact contactMember

end Contact

/-! ## Taking contacts in -/

namespace Merger

theorem refusal?_eq_none {merger : Merger} {contact : Contact}
    (forward : contact.start ≤ contact.stop)
    (ordered : ∀ last, merger.lastStart = some last → last ≤ contact.start) :
    merger.refusal? contact = none := by
  rw [refusal?, if_neg (UInt64.not_lt.mpr forward)]
  cases known : merger.lastStart with
  | none => rfl
  | some last => exact if_neg (UInt64.not_lt.mpr (ordered last known))

theorem paddedStop_eq {merger : Merger} {contact : Contact}
    (forward : contact.start ≤ contact.stop) :
    merger.paddedStop contact = (contact.span merger.pad).stop := by
  rw [paddedStop, Contact.span]
  by_cases lasting : contact.start < contact.stop
  · rw [if_pos lasting, if_neg (UInt64.ne_of_lt lasting)]
  · have same : contact.start = contact.stop :=
      UInt64.le_antisymm forward (UInt64.not_lt.mp lasting)
    rw [if_neg lasting, if_pos same, same]

/-- Where marks can be joined, taking a contact in joins it to them. -/
theorem feed_eq_of_join? {merger : Merger} {contact : Contact} {joined : List Mark}
    (accepted : merger.refusal? contact = none)
    (done : Mark.join? contact.pair contact.start (merger.paddedStop contact) merger.marks =
      some joined) :
    merger.feed contact = (.ok (), { merger.enroll contact with marks := joined }) := by
  rw [Mark.join?] at done
  rw [feed, accepted]
  dsimp only
  split at done
  · rename_i covered
    cases done
    rw [if_pos covered]
    rfl
  · rename_i uncovered
    rw [if_neg uncovered, done]

/-- A merger that knows the nodes of some contacts knows those of the next one, too. -/
theorem mem_enroll_nodes {merger : Merger} {contacts : List Contact} {contact : Contact}
    (nodes : ∀ name, name ∈ merger.nodes.keys ↔
      ∃ known ∈ contacts, name = known.observer ∨ name = known.observed) (name : NodeName) :
    name ∈ (merger.enroll contact).nodes.keys ↔
      ∃ known ∈ contacts ++ [contact], name = known.observer ∨ name = known.observed := by
  simp only [enroll, Table.mem_keys_insert, nodes, List.mem_append, List.mem_singleton,
    or_and_right, exists_or, exists_eq_left]
  constructor
  · rintro (observed | observer | known)
    · exact Or.inr (Or.inr observed)
    · exact Or.inr (Or.inl observer)
    · exact Or.inl known
  · rintro (known | observer | observed)
    · exact Or.inr (Or.inr known)
    · exact Or.inr (Or.inl observer)
    · exact Or.inl observed

/-- What a merger holds after contacts that it has taken in. -/
structure Records (merger : Merger) (contacts : List Contact) : Prop where
  sorted : Mark.Sorted merger.marks
  outline : ∀ pair, Mark.about pair merger.marks =
    Mark.outline pair (Interval.sweep (Contact.spans merger.pad pair contacts))
  nodes : ∀ name, name ∈ merger.nodes.keys ↔
    ∃ contact ∈ contacts, name = contact.observer ∨ name = contact.observed
  lastStart : merger.lastStart = contacts.getLast?.map (·.start)

theorem records_start (pad : UInt64) : Records { pad } [] where
  sorted := .nil
  outline _ := rfl
  nodes := by simp [Table.mem_keys_iff, EmptyCollection.emptyCollection]
  lastStart := rfl

namespace Records

variable {merger : Merger} {contacts : List Contact} {contact : Contact}

theorem accepts (records : merger.Records contacts) (forward : contact.start ≤ contact.stop)
    (ordered : ∀ earlier ∈ contacts, earlier.start ≤ contact.start) :
    merger.refusal? contact = none := by
  apply refusal?_eq_none forward
  intro last known
  rw [records.lastStart] at known
  obtain ⟨earlier, latest, rfl⟩ := Option.map_eq_some_iff.mp known
  exact ordered earlier (List.mem_of_getLast? latest)

/-- Taking in a contact that does not begin before the others keeps the relation. -/
theorem feed (records : merger.Records contacts) (positive : 0 < merger.pad)
    (sound : ∀ known ∈ contacts ++ [contact], known.Sound)
    (ordered : (contacts ++ [contact]).Pairwise fun earlier later =>
      earlier.start ≤ later.start) :
    ∃ next, merger.feed contact = (.ok (), next) ∧ next.Records (contacts ++ [contact]) ∧
      next.pad = merger.pad := by
  obtain ⟨contactsOrdered, -, across⟩ := List.pairwise_append.mp ordered
  have contactSound := sound contact (List.mem_append_right _ List.mem_cons_self)
  have earlierStarts : ∀ earlier ∈ contacts, earlier.start ≤ contact.start :=
    fun earlier member => across earlier member contact List.mem_cons_self
  have accepted := records.accepts contactSound.forward earlierStarts
  have swept : Interval.Swept contact.start
      (Interval.sweep (Contact.spans merger.pad contact.pair contacts)) := by
    apply Interval.swept_sweep
    · exact Contact.spans_orderly positive
        (fun known member => sound known (List.mem_append_left _ member)) contactsOrdered _
    · exact Contact.start_le_of_mem_spans earlierStarts
  have lasting := Contact.span_lasting positive contactSound
  -- The search among the marks of the pair finds the sweep's next stretches.
  have joinedAbout := Mark.join?_outline contact.pair swept lasting
  rw [← records.outline, ← Mark.map_about_join? records.sorted] at joinedAbout
  obtain ⟨joined, done, aboutJoined⟩ := Option.map_eq_some_iff.mp joinedAbout
  refine ⟨{ merger.enroll contact with marks := joined }, ?_, ?_, rfl⟩
  · apply feed_eq_of_join? accepted
    rw [paddedStop_eq contactSound.forward]
    exact done
  · constructor
    · exact Mark.join?_sorted records.sorted done
    · intro pair
      by_cases same : pair = contact.pair
      · subst same
        rw [Contact.spans_concat_self, Interval.sweep_concat]
        exact aboutJoined
      · rw [Contact.spans_concat_of_ne contacts same]
        exact (Mark.about_of_join?_of_ne same done).trans (records.outline pair)
    · exact mem_enroll_nodes records.nodes
    · simp [enroll]

end Records

theorem feedAll_cons {merger next : Merger} {contact : Contact} {rest : List Contact}
    (fed : merger.feed contact = (.ok (), next)) :
    merger.feedAll (contact :: rest) = next.feedAll rest := by
  simp only [feedAll, List.foldlM_cons, fed]
  rfl

/-- Contacts in the order of their starts are all taken in. -/
theorem Records.feedAll {merger : Merger} {contacts rest : List Contact}
    (records : merger.Records contacts) (positive : 0 < merger.pad)
    (sound : ∀ contact ∈ contacts ++ rest, contact.Sound)
    (ordered : (contacts ++ rest).Pairwise fun earlier later => earlier.start ≤ later.start) :
    ∃ full, merger.feedAll rest = .ok full ∧ full.Records (contacts ++ rest) ∧
      full.pad = merger.pad := by
  induction rest generalizing merger contacts with
  | nil => exact ⟨merger, rfl, by simpa using records, rfl⟩
  | cons contact rest inductionHypothesis =>
      have regroup : contacts ++ contact :: rest = (contacts ++ [contact]) ++ rest := by simp
      rw [regroup] at sound ordered ⊢
      obtain ⟨next, fed, nextRecords, samePad⟩ :=
        records.feed positive
          (fun known member => sound known (List.mem_append_left _ member))
          (List.pairwise_append.mp ordered).1
      obtain ⟨full, finished, fullRecords, fullPad⟩ :=
        inductionHypothesis nextRecords (samePad ▸ positive) sound ordered
      exact ⟨full, (feedAll_cons fed).trans finished, fullRecords, fullPad.trans samePad⟩

end Merger

/-! ## Contacts in any order -/

namespace Contact

theorem order_eq_compareLex :
    order = compareLex (compareOn start) (compareLex (compareOn stop) (compareOn pair)) := rfl

instance : Std.TransCmp order := by
  rw [order_eq_compareLex]
  infer_instance

theorem start_le_of_order {first second : Contact} (ordered : (first.order second).isLE = true) :
    first.start ≤ second.start := by
  rw [order] at ordered
  by_contra later
  have after : compare first.start second.start = .gt :=
    Std.compare_eq_gt.mpr (UInt64.not_le.mp later)
  simp [after] at ordered

/-- The contacts in the order in which a merger takes them. -/
def inOrder (contacts : List Contact) : List Contact :=
  contacts.mergeSort fun first second => (first.order second).isLE

theorem inOrder_perm (contacts : List Contact) : (inOrder contacts).Perm contacts :=
  List.mergeSort_perm _ _

theorem inOrder_sorted (contacts : List Contact) :
    (inOrder contacts).Pairwise fun first second => (first.order second).isLE = true :=
  List.pairwise_mergeSort (fun _ _ _ => Std.TransCmp.isLE_trans)
    (fun first second => by
      have swapped : second.order first = (first.order second).swap := Std.OrientedCmp.eq_swap
      rw [swapped]
      cases first.order second <;> rfl) contacts

theorem inOrder_ordered (contacts : List Contact) :
    (inOrder contacts).Pairwise fun earlier later => earlier.start ≤ later.start :=
  (inOrder_sorted contacts).imp start_le_of_order

theorem coverage_spans_of_perm {contacts others : List Contact} (same : contacts.Perm others)
    (pad : UInt64) (pair : Pair NodeName) :
    Interval.coverage (spans pad pair contacts) = Interval.coverage (spans pad pair others) := by
  have sameSpans : (spans pad pair contacts).Perm (spans pad pair others) :=
    (same.filter _).map _
  ext time
  simp only [Interval.coverage, Set.mem_ofPred_eq, sameSpans.mem_iff]

end Contact

theorem Merger.marksOf_timeline (merger : Merger) (pair : Pair NodeName) :
    merger.timeline.marksOf pair = Mark.about pair merger.marks := by
  have whole : merger.timeline.marks = merger.marks := Mark.marks_moments merger.marks
  rw [Timeline.marksOf, whole, Mark.about]

namespace Merger.Records

variable {merger : Merger} {contacts : List Contact}

theorem moments_ascending (records : merger.Records contacts) :
    merger.timeline.moments.Pairwise fun earlier later => earlier.step < later.step :=
  Mark.moments_ascending records.sorted

end Merger.Records

/-- The marks of a pair are those of stretches, the newest first, that lie apart and cover what the
contacts of the pair cover. -/
structure Timeline.Outlines (timeline : Timeline) (contacts : List Contact) (pad : UInt64)
    (pair : Pair NodeName) (stretches : List Interval) : Prop where
  marks : timeline.marksOf pair = Mark.outline pair stretches
  apart : stretches.Pairwise fun later earlier => earlier.stop < later.start
  lasting : ∀ stretch ∈ stretches, stretch.start < stretch.stop
  coverage : Interval.coverage stretches = Interval.coverage (Contact.spans pad pair contacts)

theorem Timeline.Outlines.mem_iff_isComponent {timeline : Timeline} {contacts : List Contact}
    {pad : UInt64} {pair : Pair NodeName} {stretches : List Interval}
    (outlines : timeline.Outlines contacts pad pair stretches) (interval : Interval) :
    interval ∈ stretches ↔ Interval.IsComponent (Contact.spans pad pair contacts) interval := by
  have apart : stretches.Pairwise Interval.Apart := outlines.apart.imp fun before => Or.inr before
  rw [← Interval.isComponent_congr outlines.coverage]
  exact (Interval.isComponent_iff_mem apart fun stretch member =>
    UInt64.le_of_lt (outlines.lasting stretch member)).symm

/-- A timeline that tells of contacts when each pair is connected, and of nothing else. -/
structure Timeline.Tells (timeline : Timeline) (contacts : List Contact) (pad : UInt64) :
    Prop where
  outlines : ∀ pair, ∃ stretches, timeline.Outlines contacts pad pair stretches
  ascending : timeline.moments.Pairwise fun earlier later => earlier.step < later.step
  occupied : ∀ moment ∈ timeline.moments, moment.events ≠ []
  nodes : ∀ name, name ∈ timeline.nodes.keys ↔
    ∃ contact ∈ contacts, name = contact.observer ∨ name = contact.observed

theorem Merger.Records.tells {merger : Merger} {contacts : List Contact}
    (records : merger.Records contacts) (positive : 0 < merger.pad)
    (sound : ∀ contact ∈ contacts, contact.Sound)
    (ordered : contacts.Pairwise fun earlier later => earlier.start ≤ later.start) :
    merger.timeline.Tells contacts merger.pad where
  outlines pair := by
    have orderly : Interval.Orderly (Contact.spans merger.pad pair contacts) :=
      Contact.spans_orderly positive sound ordered pair
    exact ⟨_, (marksOf_timeline _ pair).trans (records.outline pair), orderly.swept.apart,
      orderly.swept.lasting, Interval.coverage_sweep orderly⟩
  ascending := records.moments_ascending
  occupied := Mark.events_ne_nil_of_mem_moments
  nodes := records.nodes

/-- A timeline tells of contacts without regard to their order. -/
theorem Timeline.Tells.of_perm {timeline : Timeline} {contacts others : List Contact}
    {pad : UInt64} (tells : timeline.Tells contacts pad) (same : contacts.Perm others) :
    timeline.Tells others pad where
  outlines pair := by
    obtain ⟨stretches, outlines⟩ := tells.outlines pair
    exact ⟨stretches, outlines.marks, outlines.apart, outlines.lasting,
      outlines.coverage.trans (Contact.coverage_spans_of_perm same pad pair)⟩
  ascending := tells.ascending
  occupied := tells.occupied
  nodes name := by simp only [tells.nodes, same.mem_iff]

/-- The marks of a pair stand at the two ends of the components of what its contacts cover. -/
theorem Timeline.Tells.exists_components {timeline : Timeline} {contacts : List Contact}
    {pad : UInt64} (tells : timeline.Tells contacts pad) (pair : Pair NodeName) :
    ∃ components : List Interval,
      timeline.marksOf pair = components.flatMap (Interval.marks pair) ∧
      components.Pairwise (fun earlier later => earlier.stop < later.start) ∧
      ∀ interval, interval ∈ components ↔
        Interval.IsComponent (Contact.spans pad pair contacts) interval := by
  obtain ⟨stretches, outlines⟩ := tells.outlines pair
  refine ⟨stretches.reverse, outlines.marks, List.pairwise_reverse.mpr outlines.apart, ?_⟩
  intro interval
  rw [List.mem_reverse, outlines.mem_iff_isComponent]

/-- Sound contacts in any order are merged to a timeline that tells of them. -/
theorem exists_tells_of_sound {contacts : List Contact} {pad : UInt64} (positive : 0 < pad)
    (sound : ∀ contact ∈ contacts, contact.Sound) :
    ∃ timeline, Timeline.ofContacts contacts pad = .ok timeline ∧ timeline.Tells contacts pad := by
  have inOrderSound : ∀ contact ∈ [] ++ Contact.inOrder contacts, contact.Sound :=
    fun contact member => sound contact ((Contact.inOrder_perm contacts).mem_iff.mp member)
  obtain ⟨merger, fed, records, rfl⟩ :=
    (Merger.records_start pad).feedAll positive inOrderSound (Contact.inOrder_ordered contacts)
  have tells := records.tells positive inOrderSound (Contact.inOrder_ordered contacts)
  refine ⟨merger.timeline, ?_, tells.of_perm (Contact.inOrder_perm contacts)⟩
  have startable : Merger.start merger.pad = .ok { pad := merger.pad } :=
    if_neg (UInt64.ne_of_lt positive).symm
  rw [Timeline.ofContacts, startable]
  exact congrArg (Except.map Merger.timeline) fed

/-- Sound contacts are merged to a timeline that adds a pair where a component of what its contacts
cover begins and deletes it where the component ends. -/
theorem ofContacts_marks_components (contacts : List Contact) (pad : UInt64)
    (positive : 0 < pad) (sound : ∀ contact ∈ contacts, contact.Sound) :
    ∃ timeline, Timeline.ofContacts contacts pad = .ok timeline ∧
      (∀ pair, ∃ components : List Interval,
        timeline.marksOf pair = components.flatMap (Interval.marks pair) ∧
        components.Pairwise (fun earlier later => earlier.stop < later.start) ∧
        ∀ interval, interval ∈ components ↔
          Interval.IsComponent (Contact.spans pad pair contacts) interval) ∧
      timeline.moments.Pairwise (fun earlier later => earlier.step < later.step) ∧
      (∀ moment ∈ timeline.moments, moment.events ≠ []) ∧
      ∀ name, name ∈ timeline.nodes.keys ↔
        ∃ contact ∈ contacts, name = contact.observer ∨ name = contact.observed := by
  obtain ⟨timeline, merged, tells⟩ := exists_tells_of_sound positive sound
  refine ⟨timeline, merged, fun pair => ?_, tells.ascending, tells.occupied, tells.nodes⟩
  obtain ⟨stretches, outlines⟩ := tells.outlines pair
  refine ⟨stretches.reverse, outlines.marks, List.pairwise_reverse.mpr outlines.apart, ?_⟩
  intro interval
  rw [List.mem_reverse, outlines.mem_iff_isComponent]

/-- Two contacts that touch, one a step after them and one without duration at the last step but
one, of two pairs and out of order. -/
theorem ofContacts_marks_components_touching :
    let contacts : List Contact :=
      [⟨.number 2, .number 1, 5, 9⟩, ⟨.number 1, .number 2, 0, 5⟩, ⟨.number 1, .number 2, 10, 12⟩,
        ⟨.text "a", .number 2, 18446744073709551614, 18446744073709551614⟩]
    (0 : UInt64) < 10 ∧ (∀ contact ∈ contacts, contact.Sound) ∧
      ∃ timeline, Timeline.ofContacts contacts 10 = .ok timeline ∧
        (∀ pair, ∃ components : List Interval,
          timeline.marksOf pair = components.flatMap (Interval.marks pair) ∧
          components.Pairwise (fun earlier later => earlier.stop < later.start) ∧
          ∀ interval, interval ∈ components ↔
            Interval.IsComponent (Contact.spans 10 pair contacts) interval) ∧
        timeline.moments.Pairwise (fun earlier later => earlier.step < later.step) ∧
        (∀ moment ∈ timeline.moments, moment.events ≠ []) ∧
        ∀ name, name ∈ timeline.nodes.keys ↔
          ∃ contact ∈ contacts, name = contact.observer ∨ name = contact.observed :=
  ⟨by decide, by decide, ofContacts_marks_components _ 10 (by decide) (by decide)⟩

end ContactReplay
