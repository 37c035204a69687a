import ContactReplay.Proofs.Pipeline.Enacting
import ContactReplay.Proofs.Pipeline.Telling
import ContactReplay.Proofs.Replay.Reaching

/-!
# From contacts to links

Contacts are merged to a timeline, the timeline is written as a graph stream, the graph stream is
read and its document is replayed.  `replay_ofContacts` says what all of this comes to: every part
succeeds, the document has a step exactly where a component of what the contacts of a pair cover
begins or ends, and after each step the link of two nodes is up exactly if a component of what their
contacts cover holds the step and does not end there.
-/

namespace ContactReplay

open GraphStream

/-! ## The document of a timeline -/

namespace GraphStream

theorem take_documentSteps (offset : UInt64) (past : List Event) (number : Nat)
    (moments : List Moment) (count : Nat) :
    (documentSteps offset past number moments).take count =
      documentSteps offset past number (moments.take count) := by
  induction moments generalizing past number count with
  | nil => simp [documentSteps]
  | cons moment rest inductionHypothesis =>
      cases count with
      | zero => rfl
      | succ fewer =>
          rw [documentSteps, List.take_succ_cons, List.take_succ_cons, documentSteps,
            inductionHypothesis]

/-- An end of the line of an event is the label of an end of the event's pair. -/
theorem mem_endNames_lineOf {past : List Event} {event : Event} {number : Nat} {name : String}
    (isEnd : name ∈ (lineOf past event number).endNames) :
    name = event.pair.low.label ∨ name = event.pair.high.label := by
  obtain ⟨change, pair⟩ := event
  cases change with
  | add => simpa [lineOf, EdgeLine.endNames] using isEnd
  | delete => simp [lineOf, EdgeLine.endNames] at isEnd

theorem namePair?_lineOf {past : List Event} {event : Event} {number : Nat} {names : Pair String}
    (joins : (lineOf past event number).namePair? = some names) :
    names = .of event.pair.low.label event.pair.high.label := by
  obtain ⟨change, pair⟩ := event
  cases change with
  | add => exact (Option.some.inj joins).symm
  | delete => cases joins

end GraphStream

namespace Timeline

variable {timeline : Timeline} {contacts : List Contact} {pad : UInt64} {graphName : String}

namespace Tells

variable (tells : timeline.Tells contacts pad)
include tells

theorem count_nodes (legible : Contact.Legible contacts) {name : NodeName}
    (member : name ∈ Contact.names contacts) :
    (timeline.document graphName).nodes.count name.label = 1 := by
  have distinct : (timeline.nodes.keys.map NodeName.label).Nodup := by
    refine List.Nodup.map_on (fun first firstMember second secondMember sameLabel => ?_)
      timeline.nodes.keys_nodup
    exact legible.distinct first ((tells.mem_keys_iff first).mp firstMember) second
      ((tells.mem_keys_iff second).mp secondMember) sameLabel
  exact List.count_eq_one_of_mem distinct
    (List.mem_map_of_mem ((tells.mem_keys_iff name).mpr member))

theorem card_namePairs_le :
    ((timeline.document graphName).lines.filterMap EdgeLine.namePair?).toFinset.card ≤
      (contacts.map Contact.pair).toFinset.card := by
  let labels : Pair NodeName → Pair String := fun pair => .of pair.low.label pair.high.label
  have among : ((timeline.document graphName).lines.filterMap EdgeLine.namePair?).toFinset ⊆
      (contacts.map Contact.pair).toFinset.image labels := by
    intro names member
    rw [List.mem_toFinset] at member
    obtain ⟨line, lineMember, joins⟩ := List.mem_filterMap.mp member
    obtain ⟨event, eventMember, before, number, rfl⟩ :=
      (timeline.transcribed_document graphName).exists_event lineMember
    obtain ⟨contact, contactMember, same⟩ := tells.exists_contact eventMember
    rw [Finset.mem_image]
    refine ⟨event.pair, ?_, (namePair?_lineOf joins).symm⟩
    rw [List.mem_toFinset, ← same]
    exact List.mem_map_of_mem contactMember
  exact (Finset.card_le_card among).trans Finset.card_image_le

/-- The steps of the document are those of the timeline, all later by its shift. -/
theorem map_toNat_steps (fits : timeline.Fits) (graphName : String) :
    (timeline.document graphName).steps.map (·.step.toNat) =
      timeline.moments.map (·.step.toNat + timeline.shift) := by
  have shifted := congrArg (List.map UInt64.toNat)
    (map_step_documentSteps timeline.offset [] (4 + timeline.nodes.size) timeline.moments)
  rw [List.map_map, List.map_map] at shifted
  refine shifted.trans (List.map_congr_left fun moment member => ?_)
  rw [← tells.toNat_offset]
  exact toNat_shift (tells.shiftable fits moment member)

theorem steps_ascending (fits : timeline.Fits) :
    (timeline.document graphName).steps.Pairwise
      fun earlier later => earlier.step < later.step := by
  have ascending : ((timeline.document graphName).steps.map (·.step.toNat)).Pairwise (· < ·) := by
    rw [tells.map_toNat_steps fits]
    refine List.pairwise_map.mpr (tells.ascending.imp fun before => ?_)
    exact Nat.add_lt_add_right (UInt64.lt_iff_toNat_lt.mp before) _
  exact (List.pairwise_map.mp ascending).imp UInt64.lt_iff_toNat_lt.mpr

/-- The steps of the document are the ends of the components of what the contacts cover, all later
by the shift of the timeline. -/
theorem exists_step_iff (fits : timeline.Fits) (step : Nat) :
    (∃ moment ∈ (timeline.document graphName).steps, moment.step.toNat = step) ↔
      ∃ contact ∈ contacts, ∃ interval,
        Interval.IsComponent (Contact.spans pad contact.pair contacts) interval ∧
        (step = interval.start.toNat + timeline.shift ∨
          step = interval.stop.toNat + timeline.shift) := by
  rw [← List.mem_map, tells.map_toNat_steps fits, List.mem_map]
  constructor
  · rintro ⟨moment, member, rfl⟩
    obtain ⟨contact, contactMember, interval, component, isEnd⟩ :=
      (tells.exists_moment_iff moment.step).mp ⟨moment, member, rfl⟩
    exact ⟨contact, contactMember, interval, component,
      isEnd.imp (fun starts => by rw [starts]) fun stops => by rw [stops]⟩
  · rintro ⟨contact, contactMember, interval, component, isEnd⟩
    have moments : ∀ last, last = interval.start ∨ last = interval.stop →
        ∃ moment ∈ timeline.moments, moment.step = last := fun last ends =>
      (tells.exists_moment_iff last).mpr ⟨contact, contactMember, interval, component, ends⟩
    rcases isEnd with rfl | rfl
    · obtain ⟨moment, member, starts⟩ := moments interval.start (Or.inl rfl)
      exact ⟨moment, member, by rw [starts]⟩
    · obtain ⟨moment, member, stops⟩ := moments interval.stop (Or.inr rfl)
      exact ⟨moment, member, by rw [stops]⟩

/-- The document can be replayed if there is a subnet for every pair. -/
theorem playable (legible : Contact.Legible contacts) {settings : Settings}
    (unlimited : settings.maxSteps = none)
    (roomy : (contacts.map Contact.pair).toFinset.card ≤
      settings.addressing.subnetCapacity.toNat) :
    (timeline.document graphName).Playable settings := by
  have chosen : (timeline.document graphName).chosenLines settings =
      (timeline.document graphName).lines := by
    rw [Document.chosenLines, Conductor.chooseSteps, unlimited, Document.lines]
  refine ⟨fun name isEnd => ?_, ?_, ?_⟩
  · rw [chosen] at isEnd
    obtain ⟨line, lineMember, isEnd⟩ := List.mem_flatMap.mp isEnd
    obtain ⟨event, eventMember, before, number, rfl⟩ :=
      (timeline.transcribed_document graphName).exists_event lineMember
    obtain ⟨contact, contactMember, same⟩ := tells.exists_contact eventMember
    obtain ⟨lowMember, highMember⟩ := Contact.ends_mem_names contactMember
    rw [same] at lowMember highMember
    rcases mem_endNames_lineOf isEnd with rfl | rfl
    · exact tells.count_nodes legible lowMember
    · exact tells.count_nodes legible highMember
  · rw [chosen]
    exact tells.card_namePairs_le.trans roomy
  · rw [chosen]
    apply (timeline.transcribed_document graphName).takesTurns tells.alternates
    intro edge
    simp [NamesOpen, openNumber?]

/-! ## The nodes of contacts in a replay -/

section Prepared

variable {registry : Registry} {names : List String} {addresses : AddressBook}
  (prepared : ∀ line ∈ (timeline.document graphName).lines,
    Conductor.Prepared registry addresses line)
include prepared

/-- The pair of every contact has identifiers, and these have an allotment. -/
theorem exists_allotment (positive : 0 < pad) {contact : Contact} (sound : contact.Sound)
    (member : contact ∈ contacts) :
    ∃ ids allotment, idsOf registry contact.pair = some ids ∧
      addresses.get? ids = some allotment := by
  obtain ⟨before, number, lineMember⟩ :=
    (timeline.transcribed_document graphName).exists_line
      (tells.add_mem_events positive sound member)
  obtain ⟨⟨ids, known⟩, allotted⟩ := prepared _ lineMember
  obtain ⟨allotment, found⟩ := allotted ids known
  exact ⟨ids, allotment, known, found⟩

theorem separates (positive : 0 < pad) (sound : ∀ contact ∈ contacts, contact.Sound)
    (legible : Contact.Legible contacts) (faithful : registry.Faithful names) :
    Separates registry (contacts.map Contact.pair) where
  known := by
    rw [List.forall_mem_map]
    intro contact member
    obtain ⟨ids, allotment, known, -⟩ :=
      tells.exists_allotment prepared positive (sound contact member) member
    exact ⟨ids, known⟩
  injective := by
    rw [List.forall_mem_map]
    intro first firstMember
    rw [List.forall_mem_map]
    intro second secondMember ids firstKnown secondKnown
    obtain ⟨firstLow, firstHigh⟩ := Contact.ends_mem_names firstMember
    obtain ⟨secondLow, secondHigh⟩ := Contact.ends_mem_names secondMember
    have sameLabels := faithful.pair?_injective firstKnown secondKnown
    rw [← Pair.of_low_high first.pair, ← Pair.of_low_high second.pair, Pair.of_eq_of_iff]
    rcases Pair.of_eq_of_iff.mp sameLabels with ⟨low, high⟩ | ⟨low, high⟩
    · exact Or.inl ⟨legible.distinct _ firstLow _ secondLow low,
        legible.distinct _ firstHigh _ secondHigh high⟩
    · exact Or.inr ⟨legible.distinct _ firstLow _ secondHigh low,
        legible.distinct _ firstHigh _ secondLow high⟩

end Prepared

theorem isSome_openNumber?_iff_shifted (fits : timeline.Fits) {place : Nat} {moment : DocumentStep}
    (found : (timeline.document graphName).steps[place]? = some moment) (pair : Pair NodeName) :
    (openNumber? pair
        ((timeline.moments.take (place + 1)).flatMap (·.events)).reverse).isSome = true ↔
      ∃ interval, Interval.IsComponent (Contact.spans pad pair contacts) interval ∧
        interval.start.toNat + timeline.shift ≤ moment.step.toNat ∧
        moment.step.toNat < interval.stop.toNat + timeline.shift := by
  have steps := congrArg (·[place]?) (tells.map_toNat_steps fits graphName)
  simp only [List.getElem?_map, found, Option.map_some] at steps
  obtain ⟨source, sourceFound, shifted⟩ := Option.map_eq_some_iff.mp steps.symm
  rw [tells.isSome_openNumber?_iff sourceFound, ← shifted]
  simp only [UInt64.le_iff_toNat_le, UInt64.lt_iff_toNat_lt, Nat.add_le_add_iff_right,
    Nat.add_lt_add_iff_right]

end Tells

end Timeline

/-! ## Links after some lines -/

/-- The links of known pairs are up exactly if the events that have been enacted connect them. -/
theorem Conductor.Playing.exists_link {files : Table FileName String} {id : SessionId}
    {registry : Registry} {addresses : AddressBook} {lines : List EdgeLine} {session : Session}
    {stand : Stand} (playing : Playing files id registry addresses lines session stand)
    {pairs : List (Pair NodeName)} {past : List Event}
    (enacts : Enacts registry pairs past lines) {pair : Pair NodeName} (member : pair ∈ pairs)
    {ids : Pair NodeId} (known : idsOf registry pair = some ids) {allotment : Allotment}
    (found : addresses.get? ids = some allotment) :
    ∃ link, session.links.get? ids = some link ∧
      (link.isUp = true ↔ (openNumber? pair past).isSome = true) := by
  obtain ⟨link, inSession, -, -, loss⟩ := playing.linked.linked ids allotment found
  refine ⟨link, inSession, ?_⟩
  rw [SessionLink.isUp, loss, enacts.loss pair member ids known]
  cases (openNumber? pair past).isSome with
  | true => exact iff_of_true rfl rfl
  | false =>
      have isDown : Loss.down.isUp = false := by decide +kernel
      simp [isDown]

/-! ## The whole way -/

namespace Timeline.Tells

variable {timeline : Timeline} {contacts : List Contact} {pad : UInt64}
  (tells : timeline.Tells contacts pad)
include tells

/-- After the lines of some steps of the document, the events of these steps have been enacted. -/
theorem enacts_document {registry : Registry} {names : List String} {addresses : AddressBook}
    {graphName : String}
    (prepared : ∀ line ∈ (timeline.document graphName).lines,
      Conductor.Prepared registry addresses line)
    (positive : 0 < pad) (sound : ∀ contact ∈ contacts, contact.Sound)
    (legible : Contact.Legible contacts) (faithful : registry.Faithful names) (count : Nat) :
    Enacts registry (contacts.map Contact.pair)
      ((timeline.moments.take count).flatMap (·.events)).reverse
      (((timeline.document graphName).steps.take count).flatMap (·.lines)).reverse := by
  have transcribed := transcribed_documentSteps timeline.offset [] (4 + timeline.nodes.size)
    (timeline.moments.take count)
  rw [← take_documentSteps] at transcribed
  have whole : timeline.events = (timeline.moments.take count).flatMap (·.events) ++
      (timeline.moments.drop count).flatMap (·.events) := by
    rw [← List.flatMap_append, List.take_append_drop, events]
  have alternates := tells.alternates
  have listed : ∀ event ∈ timeline.events, event.pair ∈ contacts.map Contact.pair := by
    intro event member
    obtain ⟨contact, contactMember, same⟩ := tells.exists_contact member
    exact List.mem_map.mpr ⟨contact, contactMember, same⟩
  rw [whole] at alternates listed
  have extended := (enacts_nil registry (contacts.map Contact.pair)).extend
    (tells.separates prepared positive sound legible faithful) transcribed
    ((alternates_append _ _ _).mp alternates).1 (List.forall_mem_append.mp listed).1
  rwa [List.append_nil, List.append_nil] at extended

end Timeline.Tells

namespace Rehearsal

/-- Contacts of nodes that can be told apart are merged, written, read and replayed without an
error.  The steps that are replayed are the ends of the components of what the contacts cover, all
shifted alike, and after each of them the links of the pairs are up exactly in these components. -/
theorem replay_ofContacts {contacts : List Contact} {pad : UInt64} {graphName : String}
    {settings : Settings} {conductor : Conductor} {rehearsal : Rehearsal} (positive : 0 < pad)
    (sound : ∀ contact ∈ contacts, contact.Sound) (legible : Contact.Legible contacts)
    (fits : ∀ timeline, Timeline.ofContacts contacts pad = .ok timeline → timeline.Fits)
    (token : Text.isToken graphName.toList = true) (spoken : graphName.toList.head? ≠ some '#')
    (accepted : Conductor.start settings = .ok conductor) (unlimited : settings.maxSteps = none)
    (roomy : (contacts.map Contact.pair).toFinset.card ≤ settings.addressing.subnetCapacity.toNat)
    (stocked : rehearsal.testbed.serviceFiles.contains ⟨settings.service, settings.configFile⟩ =
      true)
    (faultless : rehearsal.faults = {}) (uncancelled : rehearsal.cancelled = false) :
    ∃ timeline text document report,
      Timeline.ofContacts contacts pad = .ok timeline ∧
      timeline.graphText graphName = .ok text ∧ Document.read text = .ok document ∧
      (rehearsal.replay conductor document).1 = .ok report ∧
      document.steps.Pairwise (fun earlier later => earlier.step < later.step) ∧
      (∀ step : Nat, (∃ moment ∈ document.steps, moment.step.toNat = step) ↔
        ∃ contact ∈ contacts, ∃ interval,
          Interval.IsComponent (Contact.spans pad contact.pair contacts) interval ∧
          (step = interval.start.toNat + timeline.shift ∨
            step = interval.stop.toNat + timeline.shift)) ∧
      ∀ place moment, document.steps[place]? = some moment → ∃ id stand session,
        Conductor.Reaches document place ⟨conductor, rehearsal⟩ id stand ∧
        stand.rehearsal.testbed.session? id = some session ∧
        session.Named stand.conductor.registry ∧
        ∀ contact ∈ contacts, ∃ ids link,
          idsOf stand.conductor.registry contact.pair = some ids ∧
          session.links.get? ids = some link ∧
          (link.isUp = true ↔ ∃ interval,
            Interval.IsComponent (Contact.spans pad contact.pair contacts) interval ∧
            interval.start.toNat + timeline.shift ≤ moment.step.toNat ∧
            moment.step.toNat < interval.stop.toNat + timeline.shift) := by
  obtain ⟨timeline, merged, tells⟩ := exists_tells_of_sound positive sound
  have timelineFits := fits timeline merged
  obtain ⟨text, written, read⟩ := tells.exists_text legible timelineFits token spoken
  obtain ⟨rfl, small⟩ := Conductor.eq_fresh_of_start accepted
  have playable : (timeline.document graphName).Playable settings :=
    tells.playable legible unlimited roomy
  have few : (timeline.document graphName).nodes.length < UInt32.size - 2 := by
    have declared : (timeline.document graphName).nodes.length = timeline.nodes.size := by
      simp [Timeline.document, Table.size, Table.keys]
    rw [declared]
    exact timelineFits.nodes
  have calm : rehearsal.Calm := ⟨faultless, uncancelled⟩
  obtain ⟨report, after, performed, -⟩ := (@Conductor.decides_run settings
    ⟨Conductor.fresh settings, rehearsal⟩ _ calm rfl stocked small few).exists_ok playable
  obtain ⟨id, registry, addresses, faithful, prepared, reached⟩ := @Conductor.exists_reaches
    settings ⟨Conductor.fresh settings, rehearsal⟩ _ calm rfl stocked small few playable
  have chosen : Conductor.chooseSteps settings (timeline.document graphName) =
      (timeline.document graphName).steps := by
    rw [Conductor.chooseSteps, unlimited]
  rw [Document.chosenLines, chosen] at prepared
  refine ⟨timeline, text, timeline.document graphName, report, merged, written, read, ?_,
    tells.steps_ascending timelineFits, tells.exists_step_iff timelineFits, ?_⟩
  · have whole := @Conductor.perform_run ⟨Conductor.fresh settings, rehearsal⟩ rfl
      (timeline.document graphName)
    exact congrArg Prod.fst (whole.trans performed)
  · intro place moment found
    obtain ⟨session, stand, reaches, playing⟩ := reached place
    rw [chosen] at playing
    refine ⟨id, stand, session, reaches, playing.holds.held, ?_, fun contact member => ?_⟩
    · rw [playing.registered]
      exact playing.named
    · obtain ⟨ids, allotment, known, allotted⟩ :=
        tells.exists_allotment prepared positive (sound contact member) member
      have enacts := tells.enacts_document prepared positive sound legible faithful (place + 1)
      obtain ⟨link, inSession, isUp⟩ :=
        playing.exists_link enacts (List.mem_map_of_mem member) known allotted
      refine ⟨ids, link, ?_, inSession, ?_⟩
      · rw [playing.registered]
        exact known
      · rw [isUp, tells.isSome_openNumber?_iff_shifted timelineFits found]

/-- Two contacts that touch, from step zero on, and one of another pair without duration. -/
def touching : List Contact :=
  [⟨.number 1, .number 2, 5, 9⟩, ⟨.number 2, .number 1, 0, 5⟩, ⟨.text "a", .number 2, 3, 3⟩]

theorem fits_touching (timeline : Timeline)
    (merged : Timeline.ofContacts touching 10 = .ok timeline) : timeline.Fits := by
  have checked : (Timeline.ofContacts touching 10).toOption.all
      (fun timeline => decide timeline.Fits) = true := by cbv
  rw [merged] at checked
  exact of_decide_eq_true checked

theorem replay_ofContacts_touching :
    ∃ timeline text document report,
      Timeline.ofContacts touching 10 = .ok timeline ∧
      timeline.graphText "contacts" = .ok text ∧ Document.read text = .ok document ∧
      (stocked.replay (.fresh {}) document).1 = .ok report ∧
      document.steps.Pairwise (fun earlier later => earlier.step < later.step) ∧
      (∀ step : Nat, (∃ moment ∈ document.steps, moment.step.toNat = step) ↔
        ∃ contact ∈ touching, ∃ interval,
          Interval.IsComponent (Contact.spans 10 contact.pair touching) interval ∧
          (step = interval.start.toNat + timeline.shift ∨
            step = interval.stop.toNat + timeline.shift)) ∧
      ∀ place moment, document.steps[place]? = some moment → ∃ id stand session,
        Conductor.Reaches document place ⟨.fresh {}, stocked⟩ id stand ∧
        stand.rehearsal.testbed.session? id = some session ∧
        session.Named stand.conductor.registry ∧
        ∀ contact ∈ touching, ∃ ids link,
          idsOf stand.conductor.registry contact.pair = some ids ∧
          session.links.get? ids = some link ∧
          (link.isUp = true ↔ ∃ interval,
            Interval.IsComponent (Contact.spans 10 contact.pair touching) interval ∧
            interval.start.toNat + timeline.shift ≤ moment.step.toNat ∧
            moment.step.toNat < interval.stop.toNat + timeline.shift) :=
  @replay_ofContacts touching 10 "contacts" {} (.fresh {}) stocked (by decide) (by decide)
    (by decide) fits_touching (by decide) (by decide) (by rfl) rfl (by decide) (by decide) rfl rfl

end Rehearsal

end ContactReplay
