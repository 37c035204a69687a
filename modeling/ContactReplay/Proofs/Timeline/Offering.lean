import ContactReplay.Proofs.Timeline.LastStep

/-!
# Contacts offered one by one

A merger may be offered contacts one after the other, and go on after those that it does not take
in.  As long as no contact lies wholly at the last step:

* a contact is refused exactly if it ends before it begins or begins before the latest one that has
  been taken in (`Holds.isOk_feed_eq_false_iff`), and a refused contact changes nothing;
* at every moment the merger holds the marks of the components of what the contacts cover that it
  has taken in so far, whatever has been refused in between (`offerAll_marks_components`).
-/

namespace ContactReplay

theorem Contact.sound_of_ne_lastStep {contact : Contact} (forward : contact.start ≤ contact.stop)
    (bounded : ¬(contact.start = lastStep ∧ contact.stop = lastStep)) : contact.Sound := by
  apply Contact.sound_of_lt forward
  apply UInt64.lt_of_le_of_ne (le_lastStep _)
  intro begins
  exact bounded ⟨begins, eq_lastStep_of_le (begins ▸ forward)⟩

namespace Merger

/-- A merger after it has been offered contacts one by one, whether it took them in or not. -/
def offerAll (merger : Merger) (contacts : List Contact) : Merger :=
  contacts.foldl (fun current contact => (current.feed contact).2) merger

/-- The contacts that a merger takes in of those that it is offered one by one. -/
def taken (merger : Merger) : List Contact → List Contact
  | [] => []
  | contact :: rest =>
      let (outcome, next) := merger.feed contact
      if outcome.isOk then contact :: next.taken rest else next.taken rest

section Offering

variable {merger : Merger} {contact : Contact}

theorem offerAll_concat (merger : Merger) (contacts : List Contact) (contact : Contact) :
    merger.offerAll (contacts ++ [contact]) = ((merger.offerAll contacts).feed contact).2 := by
  rw [offerAll, List.foldl_append]
  rfl

theorem pad_feed (merger : Merger) (contact : Contact) :
    (merger.feed contact).2.pad = merger.pad := by
  rw [feed]
  split
  · rfl
  · dsimp only
    split
    · rfl
    · split <;> rfl

theorem pad_offerAll (merger : Merger) (contacts : List Contact) :
    (merger.offerAll contacts).pad = merger.pad := by
  induction contacts generalizing merger with
  | nil => rfl
  | cons contact rest inductionHypothesis =>
      exact (inductionHypothesis _).trans (merger.pad_feed contact)

/-! ## Refusals -/

theorem refusal?_eq_none_iff : merger.refusal? contact = none ↔
    contact.start ≤ contact.stop ∧
      ∀ last, merger.lastStart = some last → last ≤ contact.start := by
  constructor
  · intro accepted
    rw [refusal?] at accepted
    split at accepted
    · cases accepted
    · rename_i forward
      refine ⟨UInt64.not_lt.mp forward, fun last known => ?_⟩
      rw [known] at accepted
      by_contra earlier
      simp [UInt64.not_le.mp earlier] at accepted
  · rintro ⟨forward, ordered⟩
    exact refusal?_eq_none forward ordered

theorem refusal?_ne_none_iff : merger.refusal? contact ≠ none ↔
    contact.stop < contact.start ∨
      ∃ last, merger.lastStart = some last ∧ contact.start < last := by
  rw [ne_eq, refusal?_eq_none_iff, not_and_or, UInt64.not_le]
  simp only [not_forall, UInt64.not_le, exists_prop]

theorem feed_of_refusal {cause : InvariantError} (refused : merger.refusal? contact = some cause) :
    merger.feed contact = (.error (.invariant cause), merger) := by
  rw [feed, refused]

/-! ## What is taken in -/

namespace Records

variable {contacts : List Contact}

/-- The contacts taken in come in the order of their starts, so the latest start bounds them all. -/
theorem start_le (records : merger.Records contacts)
    (ordered : contacts.Pairwise fun earlier later => earlier.start ≤ later.start)
    (accepted : merger.refusal? contact = none) :
    ∀ earlier ∈ contacts, earlier.start ≤ contact.start := by
  intro earlier member
  have nonempty := List.ne_nil_of_mem member
  have latest : merger.lastStart = some (contacts.getLast nonempty).start := by
    rw [records.lastStart, List.getLast?_eq_some_getLast nonempty, Option.map_some]
  have last := (refusal?_eq_none_iff.mp accepted).2 _ latest
  rw [← List.dropLast_append_getLast nonempty] at member ordered
  rcases List.mem_append.mp member with inner | final
  · have before := (List.pairwise_append.mp ordered).2.2 earlier inner _ List.mem_cons_self
    exact UInt64.le_trans before last
  · rwa [List.mem_singleton.mp final]

end Records

/-- A merger in which contacts are recorded that came in order and had a duration. -/
structure Holds (merger : Merger) (contacts : List Contact) : Prop where
  positive : 0 < merger.pad
  records : merger.Records contacts
  sound : ∀ contact ∈ contacts, contact.Sound
  ordered : contacts.Pairwise fun earlier later => earlier.start ≤ later.start

namespace Holds

variable {contacts : List Contact}

/-- A contact that is not refused is taken in. -/
theorem feed (holds : merger.Holds contacts)
    (bounded : ¬(contact.start = lastStep ∧ contact.stop = lastStep))
    (accepted : merger.refusal? contact = none) :
    ∃ next, merger.feed contact = (.ok (), next) ∧ next.Holds (contacts ++ [contact]) := by
  have forward := (refusal?_eq_none_iff.mp accepted).1
  have sound : ∀ known ∈ contacts ++ [contact], known.Sound := by
    intro known member
    rcases List.mem_append.mp member with old | new
    · exact holds.sound known old
    · rw [List.mem_singleton.mp new]
      exact Contact.sound_of_ne_lastStep forward bounded
  have ordered : (contacts ++ [contact]).Pairwise fun earlier later =>
      earlier.start ≤ later.start := by
    refine List.pairwise_append.mpr ⟨holds.ordered, List.pairwise_singleton _ _, ?_⟩
    intro earlier member other isContact
    rw [List.mem_singleton.mp isContact]
    exact holds.records.start_le holds.ordered accepted earlier member
  obtain ⟨next, fed, records, samePad⟩ := holds.records.feed holds.positive sound ordered
  exact ⟨next, fed, samePad ▸ holds.positive, records, sound, ordered⟩

theorem isOk_feed_eq_false_iff (holds : merger.Holds contacts)
    (bounded : ¬(contact.start = lastStep ∧ contact.stop = lastStep)) :
    (merger.feed contact).1.isOk = false ↔ merger.refusal? contact ≠ none := by
  cases refusal : merger.refusal? contact with
  | none =>
      obtain ⟨next, fed, -⟩ := holds.feed bounded refusal
      simp [fed, Except.isOk, Except.toBool]
  | some cause => simp [feed_of_refusal refusal, Except.isOk, Except.toBool]

/-- A merger that is offered contacts holds those that it takes in. -/
theorem offerAll (holds : merger.Holds contacts) {offered : List Contact}
    (bounded : ∀ contact ∈ offered, ¬(contact.start = lastStep ∧ contact.stop = lastStep)) :
    (merger.offerAll offered).Holds (contacts ++ merger.taken offered) := by
  induction offered generalizing merger contacts with
  | nil =>
      rw [taken, List.append_nil]
      exact holds
  | cons contact rest inductionHypothesis =>
      obtain ⟨contactBounded, restBounded⟩ := List.forall_mem_cons.mp bounded
      rw [Merger.offerAll, List.foldl_cons, ← Merger.offerAll, taken]
      cases refusal : merger.refusal? contact with
      | none =>
          obtain ⟨next, fed, nextHolds⟩ := holds.feed contactBounded refusal
          have finalHolds := inductionHypothesis nextHolds restBounded
          rw [List.append_assoc] at finalHolds
          rw [fed]
          exact finalHolds
      | some cause =>
          rw [feed_of_refusal refusal]
          exact inductionHypothesis holds restBounded

end Holds

theorem holds_start {pad : UInt64} (positive : 0 < pad) : Holds { pad } [] :=
  ⟨positive, records_start pad, nofun, .nil⟩

end Offering

end Merger

/-- A merger that is offered contacts one by one refuses a contact exactly if it ends before it
begins or begins before the latest one that has been taken in, is not changed by a refused contact
and holds, after every one, the nodes of the contacts that it has taken in so far and the marks at
the ends of the components of what they cover. -/
theorem offerAll_marks_components {pad : UInt64} (positive : 0 < pad) {offered : List Contact}
    {contact : Contact} (bounded : ∀ known ∈ offered ++ [contact],
      ¬(known.start = lastStep ∧ known.stop = lastStep)) :
    ∃ fresh, Merger.start pad = .ok fresh ∧
      let merger := fresh.offerAll offered
      let timeline := (merger.feed contact).2.timeline
      let accepted := fresh.taken (offered ++ [contact])
      ((merger.feed contact).1.isOk = false ↔ contact.stop < contact.start ∨
        ∃ last, (fresh.taken offered).getLast? = some last ∧ contact.start < last.start) ∧
      ((merger.feed contact).1.isOk = false → (merger.feed contact).2 = merger) ∧
      (∀ name, name ∈ timeline.nodes.keys ↔
        ∃ known ∈ accepted, name = known.observer ∨ name = known.observed) ∧
      ∀ pair, ∃ components : List Interval,
        timeline.marksOf pair = components.flatMap (Interval.marks pair) ∧
        components.Pairwise (fun earlier later => earlier.stop < later.start) ∧
        ∀ interval, interval ∈ components ↔
          Interval.IsComponent (Contact.spans pad pair accepted) interval := by
  have startable : Merger.start pad = .ok { pad } := if_neg (UInt64.ne_of_lt positive).symm
  refine ⟨{ pad }, startable, ?_⟩
  dsimp only
  have earlierBounded := fun known member => bounded known (List.mem_append_left [contact] member)
  have contactBounded := bounded contact (List.mem_append_right _ List.mem_cons_self)
  have before := (Merger.holds_start positive).offerAll earlierBounded
  have after := (Merger.holds_start positive).offerAll bounded
  rw [List.nil_append] at before after
  have tells := after.records.tells after.positive after.sound after.ordered
  rw [Merger.pad_offerAll, Merger.offerAll_concat] at tells
  refine ⟨?_, ?_, tells.nodes, tells.exists_components⟩
  · rw [before.isOk_feed_eq_false_iff contactBounded, Merger.refusal?_ne_none_iff,
      before.records.lastStart]
    simp only [Option.map_eq_some_iff, exists_exists_and_eq_and]
  · intro failed
    obtain ⟨cause, refused⟩ := Option.ne_none_iff_exists'.mp
      ((before.isOk_feed_eq_false_iff contactBounded).mp failed)
    rw [Merger.feed_of_refusal refused]

/-- Contacts of which the fourth one begins too early, the fifth one ends too early and the others
are taken in, two of them with one start and the longer one first. -/
theorem offerAll_marks_components_refusing :
    let offered : List Contact := [⟨.text "a", .text "b", 3, 9⟩, ⟨.text "b", .text "a", 3, 5⟩,
      ⟨.text "a", .text "c", 7, 7⟩, ⟨.text "a", .text "c", 4, 8⟩, ⟨.text "b", .text "c", 20, 10⟩]
    let contact : Contact := ⟨.text "a", .text "b", 9, 12⟩
    (0 : UInt64) < 10 ∧ (∀ known ∈ offered ++ [contact],
        ¬(known.start = lastStep ∧ known.stop = lastStep)) ∧
      ∃ fresh, Merger.start 10 = .ok fresh ∧
        let merger := fresh.offerAll offered
        let timeline := (merger.feed contact).2.timeline
        let accepted := fresh.taken (offered ++ [contact])
        ((merger.feed contact).1.isOk = false ↔ contact.stop < contact.start ∨
          ∃ last, (fresh.taken offered).getLast? = some last ∧ contact.start < last.start) ∧
        ((merger.feed contact).1.isOk = false → (merger.feed contact).2 = merger) ∧
        (∀ name, name ∈ timeline.nodes.keys ↔
          ∃ known ∈ accepted, name = known.observer ∨ name = known.observed) ∧
        ∀ pair, ∃ components : List Interval,
          timeline.marksOf pair = components.flatMap (Interval.marks pair) ∧
          components.Pairwise (fun earlier later => earlier.stop < later.start) ∧
          ∀ interval, interval ∈ components ↔
            Interval.IsComponent (Contact.spans 10 pair accepted) interval := by
  intro offered contact
  have bounded : ∀ known ∈ offered ++ [contact],
      ¬(known.start = lastStep ∧ known.stop = lastStep) := by decide
  exact ⟨by decide, bounded, offerAll_marks_components (by decide) bounded⟩

end ContactReplay
