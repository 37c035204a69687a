import ContactReplay.Proofs.Timeline.Offering

/-!
# What a contact leaves behind that is not taken in

A merger refuses most contacts before it changes anything.  Only the parting of a pair can fail
later, and it fails only for a contact that lies wholly at the last step and whose pair has not been
connected before: no pad makes such a contact longer, so its addition is not earlier than its
deletion.

* `Mark.join?_ne_none_of_lt` says that contacts with a duration are always joined;
* `Merger.Traceable` is what holds of a merger after any contacts, taken in or not;
* `feed_fails_and_changes_iff` says exactly when a contact fails and yet leaves something behind.
-/

namespace ContactReplay

/-! ## Marks that are kept -/

namespace Mark

variable {pair : Pair NodeName} {start stop step : UInt64} {marks : List Mark} {mark other : Mark}

theorem mem_place : other ∈ place mark marks ↔ other = mark ∨ other ∈ marks := by
  rw [place, List.mem_append, List.mem_cons, or_left_comm, ← List.mem_append,
    List.takeWhile_append_dropWhile]

theorem latestBefore_eq_none_iff : latestBefore pair step marks = none ↔
    ∀ mark ∈ marks, mark.event.pair = pair → step ≤ mark.step := by
  rw [latestBefore, List.getLast?_eq_none_iff, List.filter_eq_nil_iff]
  simp only [decide_eq_true_eq, not_and, UInt64.not_lt]

theorem mem_of_latestBefore (found : latestBefore pair step marks = some mark) : mark ∈ marks :=
  (List.mem_filter.mp (List.mem_of_getLast? found)).1

theorem step_lt_of_latestBefore (found : latestBefore pair step marks = some mark) :
    mark.step < step := by
  have held := (List.mem_filter.mp (List.mem_of_getLast? found)).2
  simp only [decide_eq_true_eq] at held
  exact held.2

theorem mem_connect_of_mem (member : mark ∈ marks) : mark ∈ connect pair start marks := by
  rw [connect]
  split
  · exact mem_place.mpr (Or.inr member)
  · exact member

theorem mem_of_mem_connect (member : mark ∈ connect pair start marks) :
    mark = ⟨start, .add, pair⟩ ∨ mark ∈ marks := by
  rw [connect] at member
  split at member
  · exact mem_place.mp member
  · exact Or.inr member

/-- Once a pair has been connected from a step on, some mark of it is not later. -/
theorem exists_mem_connect :
    ∃ mark ∈ connect pair start marks, mark.event.pair = pair ∧ mark.step ≤ start := by
  by_cases opens : opensInterval pair start marks = true
  · rw [connect, if_pos opens]
    exact ⟨_, mem_place.mpr (Or.inl rfl), rfl, UInt64.le_refl _⟩
  · rw [connect, if_neg opens]
    by_cases present : (⟨start, .add, pair⟩ : Mark) ∈ marks
    · exact ⟨_, present, rfl, UInt64.le_refl _⟩
    · rw [opensInterval, if_neg present] at opens
      split at opens
      · rename_i latest found
        exact ⟨latest, mem_of_latestBefore found, pair_of_latestBefore found,
          UInt64.le_of_lt (step_lt_of_latestBefore found)⟩
      · exact absurd rfl opens

theorem latestBefore_of_join?_eq_none (failed : join? pair start stop marks = none) :
    latestBefore pair stop (connect pair start marks) = none := by
  rw [join?] at failed
  split at failed
  · cases failed
  · exact Option.map_eq_none_iff.mp failed

/-- A contact with a duration can always be joined. -/
theorem join?_ne_none_of_lt (lasting : start < stop) : join? pair start stop marks ≠ none := by
  intro failed
  obtain ⟨mark, member, same, notLater⟩ := @exists_mem_connect pair start marks
  have late := latestBefore_eq_none_iff.mp (latestBefore_of_join?_eq_none failed) mark member same
  exact UInt64.not_lt.mpr (UInt64.le_trans late notLater) lasting

section NewPair

variable (unknown : about pair marks = [])
include unknown

theorem not_mem_of_about_eq_nil (same : mark.event.pair = pair) : mark ∉ marks := by
  intro member
  have marked : mark ∈ about pair marks := mem_about.mpr ⟨member, same⟩
  rw [unknown] at marked
  cases marked

theorem connect_of_about_eq_nil :
    connect pair step marks = place ⟨step, .add, pair⟩ marks := by
  have none : latestBefore pair step marks = none :=
    latestBefore_eq_none_iff.mpr fun mark member same =>
      absurd member (not_mem_of_about_eq_nil unknown same)
  have opens : opensInterval pair step marks = true := by
    rw [opensInterval, if_neg (not_mem_of_about_eq_nil unknown rfl), none]
  rw [connect, if_pos opens]

/-- A pair without marks cannot be added and deleted at one step. -/
theorem join?_eq_none_of_about_eq_nil : join? pair step step marks = none := by
  have opens : opensInterval pair step marks = true := by
    rw [← opensInterval_about, unknown]
    rfl
  have late : latestBefore pair step (connect pair step marks) = none := by
    rw [connect_of_about_eq_nil unknown, latestBefore_eq_none_iff]
    intro mark member same
    rcases mem_place.mp member with rfl | old
    · exact UInt64.le_refl _
    · exact absurd old (not_mem_of_about_eq_nil unknown same)
  rw [join?, isCovered, opens, part?, late]
  rfl

end NewPair

/-! ## Parting keeps additions -/

section Part

variable {parted : List Mark} (done : part? pair stop marks = some parted)
include done

theorem add_mem_of_part? (added : mark.event.change = .add) (member : mark ∈ marks) :
    mark ∈ parted := by
  obtain ⟨latest, -, rfl⟩ := Option.map_eq_some_iff.mp done
  apply mem_place.mpr
  right
  split
  · exact member
  · rename_i deleted
    have different : mark ≠ latest := by
      rintro rfl
      cases added.symm.trans deleted
    rw [eraseLast, List.mem_reverse, List.mem_erase_of_ne different, List.mem_reverse]
    exact member

theorem mem_of_mem_part? (member : mark ∈ parted) :
    mark = ⟨stop, .delete, pair⟩ ∨ mark ∈ marks := by
  obtain ⟨latest, -, rfl⟩ := Option.map_eq_some_iff.mp done
  rcases mem_place.mp member with new | old
  · exact Or.inl new
  · right
    split at old
    · exact old
    · exact (eraseLast_sublist _ _).subset old

theorem exists_mem_of_part? : ∃ mark ∈ marks, mark.event.pair = pair := by
  obtain ⟨latest, found, -⟩ := Option.map_eq_some_iff.mp done
  exact ⟨latest, mem_of_latestBefore found, pair_of_latestBefore found⟩

end Part

end Mark

namespace Merger

/-! ## Every merger -/

/-- What holds of a merger after any contacts: every pair with marks has been added, no addition is
later than the latest start, and the nodes of all marks are known. -/
structure Traceable (merger : Merger) : Prop where
  added : ∀ mark ∈ merger.marks, ∃ step, ⟨step, .add, mark.event.pair⟩ ∈ merger.marks
  begun : ∀ mark ∈ merger.marks, mark.event.change = .add →
    ∃ last, merger.lastStart = some last ∧ mark.step ≤ last
  known : ∀ mark ∈ merger.marks,
    mark.event.pair.low ∈ merger.nodes.keys ∧ mark.event.pair.high ∈ merger.nodes.keys

theorem traceable_start (pad : UInt64) : Traceable { pad } := ⟨nofun, nofun, nofun⟩

section Contact

variable {merger : Merger} {contact : Contact}

theorem ends_mem_enroll_nodes (merger : Merger) (contact : Contact) :
    contact.pair.low ∈ (merger.enroll contact).nodes.keys ∧
      contact.pair.high ∈ (merger.enroll contact).nodes.keys := by
  simp only [enroll, Table.mem_keys_insert]
  rcases Pair.of_eq_or contact.observer contact.observed with ⟨low, high⟩ | ⟨low, high⟩
  · exact ⟨Or.inr (Or.inl low), Or.inl high⟩
  · exact ⟨Or.inl low, Or.inr (Or.inl high)⟩

/-- Enrolling a contact whose nodes are known and that begins at the latest start changes
nothing. -/
theorem enroll_eq_self (known : contact.pair.low ∈ merger.nodes.keys ∧
      contact.pair.high ∈ merger.nodes.keys)
    (latest : merger.lastStart = some contact.start) : merger.enroll contact = merger := by
  have present : ∀ name, name ∈ merger.nodes.keys → merger.nodes.get? name = some () :=
    fun name member => (Table.mem_keys_iff.mp member).elim fun _ found => found
  have ends : merger.nodes.get? contact.observer = some () ∧
      merger.nodes.get? contact.observed = some () := by
    rcases Pair.of_eq_or contact.observer contact.observed with ⟨low, high⟩ | ⟨low, high⟩
    · exact ⟨present _ (low ▸ known.1), present _ (high ▸ known.2)⟩
    · exact ⟨present _ (high ▸ known.2), present _ (low ▸ known.1)⟩
  have nodes : (merger.nodes.insert contact.observer ()).insert contact.observed () =
      merger.nodes := by
    rw [Table.insert_eq_self ends.1, Table.insert_eq_self ends.2]
  rw [enroll, nodes, ← latest]

theorem feed_of_join?_eq_none (accepted : merger.refusal? contact = none)
    (failed : Mark.join? contact.pair contact.start (merger.paddedStop contact) merger.marks =
      none) :
    merger.feed contact =
      (.error (.invariant (.deleteBeforeAdd contact.pair (merger.paddedStop contact))),
        { merger.enroll contact with
          marks := Mark.connect contact.pair contact.start merger.marks }) := by
  rw [Mark.join?] at failed
  rw [feed, accepted]
  dsimp only
  split at failed
  · cases failed
  · rename_i uncovered
    rw [if_neg uncovered, failed]

namespace Traceable

theorem enroll (traceable : merger.Traceable) (accepted : merger.refusal? contact = none) :
    (merger.enroll contact).Traceable where
  added := traceable.added
  begun mark member isAddition := by
    obtain ⟨last, latest, notLater⟩ := traceable.begun mark member isAddition
    exact ⟨contact.start, rfl,
      UInt64.le_trans notLater ((refusal?_eq_none_iff.mp accepted).2 last latest)⟩
  known mark member := by
    obtain ⟨low, high⟩ := traceable.known mark member
    simp only [Merger.enroll, Table.mem_keys_insert]
    exact ⟨Or.inr (Or.inr low), Or.inr (Or.inr high)⟩

/-- A pair whose nodes are known may be connected from the latest start on. -/
theorem connect (traceable : merger.Traceable) {pair : Pair NodeName} {start : UInt64}
    (latest : merger.lastStart = some start)
    (known : pair.low ∈ merger.nodes.keys ∧ pair.high ∈ merger.nodes.keys) :
    Traceable { merger with marks := Mark.connect pair start merger.marks } where
  added mark member := by
    rcases Mark.mem_of_mem_connect member with rfl | old
    · exact ⟨start, member⟩
    · obtain ⟨step, addition⟩ := traceable.added mark old
      exact ⟨step, Mark.mem_connect_of_mem addition⟩
  begun mark member isAddition := by
    rcases Mark.mem_of_mem_connect member with rfl | old
    · exact ⟨start, latest, UInt64.le_refl _⟩
    · exact traceable.begun mark old isAddition
  known mark member := by
    rcases Mark.mem_of_mem_connect member with rfl | old
    · exact known
    · exact traceable.known mark old

theorem part (traceable : merger.Traceable) {pair : Pair NodeName} {stop : UInt64}
    {parted : List Mark} (done : Mark.part? pair stop merger.marks = some parted) :
    Traceable { merger with marks := parted } where
  added mark member := by
    obtain ⟨step, addition⟩ : ∃ step, ⟨step, .add, mark.event.pair⟩ ∈ merger.marks := by
      rcases Mark.mem_of_mem_part? done member with rfl | old
      · obtain ⟨other, otherMember, rfl⟩ := Mark.exists_mem_of_part? done
        exact traceable.added other otherMember
      · exact traceable.added mark old
    exact ⟨step, Mark.add_mem_of_part? done rfl addition⟩
  begun mark member isAddition := by
    rcases Mark.mem_of_mem_part? done member with rfl | old
    · cases isAddition
    · exact traceable.begun mark old isAddition
  known mark member := by
    rcases Mark.mem_of_mem_part? done member with rfl | old
    · obtain ⟨other, otherMember, rfl⟩ := Mark.exists_mem_of_part? done
      exact traceable.known other otherMember
    · exact traceable.known mark old

/-- Being offered a contact keeps a merger traceable, whatever comes of it. -/
theorem feed (traceable : merger.Traceable) (contact : Contact) :
    (merger.feed contact).2.Traceable := by
  cases refusal : merger.refusal? contact with
  | some cause =>
      rw [feed_of_refusal refusal]
      exact traceable
  | none =>
      have enrolled := traceable.enroll refusal
      have connected := enrolled.connect rfl (ends_mem_enroll_nodes merger contact)
      cases joining : Mark.join? contact.pair contact.start (merger.paddedStop contact)
          merger.marks with
      | none =>
          rw [feed_of_join?_eq_none refusal joining]
          exact connected
      | some joined =>
          rw [feed_eq_of_join? refusal joining]
          rw [Mark.join?] at joining
          split at joining
          · cases joining
            exact enrolled
          · exact connected.part joining

theorem offerAll (traceable : merger.Traceable) (offered : List Contact) :
    (merger.offerAll offered).Traceable := by
  induction offered generalizing merger with
  | nil => exact traceable
  | cons contact rest inductionHypothesis => exact inductionHypothesis (traceable.feed contact)

end Traceable

/-! ## Contacts that fail -/

/-- A contact that is not refused and yet cannot be joined lies wholly at the last step. -/
theorem final_of_join?_eq_none (positive : 0 < merger.pad)
    (accepted : merger.refusal? contact = none)
    (failed : Mark.join? contact.pair contact.start (merger.paddedStop contact) merger.marks =
      none) :
    contact.start = lastStep ∧ contact.stop = lastStep ∧
      merger.paddedStop contact = lastStep := by
  have forward := (refusal?_eq_none_iff.mp accepted).1
  by_cases begins : contact.start = lastStep
  · exact ⟨begins, eq_lastStep_of_le (begins ▸ forward), paddedStop_lastStep begins forward⟩
  · have sound := Contact.sound_of_lt forward (UInt64.lt_of_le_of_ne (le_lastStep _) begins)
    have lasting := Contact.span_lasting positive sound
    rw [← paddedStop_eq forward] at lasting
    exact absurd failed (Mark.join?_ne_none_of_lt lasting)

/-- A contact at the last step whose pair has been added there before leaves nothing behind. -/
theorem Traceable.feed_eq_self (traceable : merger.Traceable) (begins : contact.start = lastStep)
    (added : ⟨lastStep, .add, contact.pair⟩ ∈ merger.marks) :
    { merger.enroll contact with
      marks := Mark.connect contact.pair contact.start merger.marks } = merger := by
  have closed : Mark.opensInterval contact.pair contact.start merger.marks = false := by
    rw [begins]
    exact if_pos added
  obtain ⟨last, latest, notLater⟩ := traceable.begun _ added rfl
  obtain rfl := eq_lastStep_of_le notLater
  rw [enroll_eq_self (traceable.known _ added) (begins ▸ latest), Mark.connect, closed]
  rfl

/-- Only a contact at the last step whose pair has no marks fails and leaves something behind. -/
theorem Traceable.about_eq_nil (traceable : merger.Traceable) (positive : 0 < merger.pad)
    (failed : (merger.feed contact).1.isOk = false) (changed : (merger.feed contact).2 ≠ merger) :
    contact.start = lastStep ∧ contact.stop = lastStep ∧
      Mark.about contact.pair merger.marks = [] := by
  cases refusal : merger.refusal? contact with
  | some cause =>
      rw [feed_of_refusal refusal] at changed
      exact absurd rfl changed
  | none =>
      cases joining : Mark.join? contact.pair contact.start (merger.paddedStop contact)
          merger.marks with
      | some joined =>
          rw [feed_eq_of_join? refusal joining] at failed
          cases failed
      | none =>
          obtain ⟨begins, ends, padded⟩ := final_of_join?_eq_none positive refusal joining
          rw [feed_of_join?_eq_none refusal joining] at changed
          have late := Mark.latestBefore_of_join?_eq_none joining
          rw [padded, Mark.latestBefore_eq_none_iff] at late
          refine ⟨begins, ends, List.filter_eq_nil_iff.mpr fun mark member same => ?_⟩
          -- The pair would have been added, and at the last step at that.
          obtain ⟨step, addition⟩ := traceable.added mark member
          rw [of_decide_eq_true same] at addition
          obtain rfl := eq_lastStep_of_le (late _ (Mark.mem_connect_of_mem addition) rfl)
          exact changed (traceable.feed_eq_self begins addition)

/-- A contact at the last step whose pair has no marks fails after it has been added. -/
theorem feed_of_about_eq_nil (begins : contact.start = lastStep) (ends : contact.stop = lastStep)
    (unknown : Mark.about contact.pair merger.marks = []) :
    (merger.feed contact).1.isOk = false ∧
      (merger.feed contact).2.timeline ≠ merger.timeline := by
  have forward : contact.start ≤ contact.stop := UInt64.le_of_eq (begins.trans ends.symm)
  have accepted : merger.refusal? contact = none :=
    refusal?_eq_none forward fun last _ => begins ▸ le_lastStep last
  have padded : merger.paddedStop contact = contact.start :=
    (paddedStop_lastStep begins forward).trans begins.symm
  have failed : Mark.join? contact.pair contact.start (merger.paddedStop contact) merger.marks =
      none := by
    rw [padded]
    exact Mark.join?_eq_none_of_about_eq_nil unknown
  rw [feed_of_join?_eq_none accepted failed]
  refine ⟨rfl, fun same => ?_⟩
  have marks := congrArg (Timeline.marksOf · contact.pair) same
  simp only [marksOf_timeline, unknown, Mark.connect_of_about_eq_nil unknown] at marks
  exact Mark.not_mem_of_about_eq_nil marks rfl (Mark.mem_place.mpr (Or.inl rfl))

end Contact

end Merger

/-- A merger that has been offered any contacts fails on a contact and is changed by it nevertheless
exactly if the contact lies wholly at the last step and its pair has no marks yet; then what is
merged so far changes, too. -/
theorem feed_fails_and_changes_iff {pad : UInt64} {fresh : Merger}
    (begun : Merger.start pad = .ok fresh) (offered : List Contact) (contact : Contact) :
    let merger := fresh.offerAll offered
    let next := (merger.feed contact).2
    ((merger.feed contact).1.isOk = false ∧ next ≠ merger ↔
      contact.start = lastStep ∧ contact.stop = lastStep ∧
        merger.timeline.marksOf contact.pair = []) ∧
    ((merger.feed contact).1.isOk = false ∧ next.timeline ≠ merger.timeline ↔
      contact.start = lastStep ∧ contact.stop = lastStep ∧
        merger.timeline.marksOf contact.pair = []) := by
  rw [Merger.start] at begun
  split at begun
  · cases begun
  rename_i nonzero
  obtain rfl := Except.ok.inj begun
  have traceable := (Merger.traceable_start pad).offerAll offered
  have positive : 0 < (Merger.offerAll { pad } offered).pad := by
    rw [Merger.pad_offerAll]
    exact UInt64.pos_iff_ne_zero.mpr nonzero
  dsimp only
  rw [Merger.marksOf_timeline]
  constructor
  · constructor
    · rintro ⟨failed, changed⟩
      exact traceable.about_eq_nil positive failed changed
    · rintro ⟨begins, ends, unknown⟩
      obtain ⟨failed, changed⟩ := Merger.feed_of_about_eq_nil begins ends unknown
      exact ⟨failed, fun same => changed (congrArg Merger.timeline same)⟩
  · constructor
    · rintro ⟨failed, changed⟩
      exact traceable.about_eq_nil positive failed fun same =>
        changed (congrArg Merger.timeline same)
    · rintro ⟨begins, ends, unknown⟩
      exact Merger.feed_of_about_eq_nil begins ends unknown

/-- Contacts at the last step: one of a pair that is known, which is taken in, and two of a pair that
is not, of which only the first leaves something behind. -/
theorem feed_fails_and_changes_iff_twice :
    let offered : List Contact := [⟨.text "a", .text "b", 3, 9⟩, ⟨.text "a", .text "c", 1, 2⟩,
      ⟨.text "b", .text "a", 18446744073709551615, 18446744073709551615⟩,
      ⟨.text "a", .text "c", 18446744073709551615, 18446744073709551615⟩]
    let contact : Contact := ⟨.text "c", .text "a", 18446744073709551615, 18446744073709551615⟩
    ∃ fresh, Merger.start 10 = .ok fresh ∧
      let merger := fresh.offerAll offered
      let next := (merger.feed contact).2
      ((merger.feed contact).1.isOk = false ∧ next ≠ merger ↔
        contact.start = lastStep ∧ contact.stop = lastStep ∧
          merger.timeline.marksOf contact.pair = []) ∧
      ((merger.feed contact).1.isOk = false ∧ next.timeline ≠ merger.timeline ↔
        contact.start = lastStep ∧ contact.stop = lastStep ∧
          merger.timeline.marksOf contact.pair = []) := by
  intro offered contact
  have begun : Merger.start 10 = .ok { pad := 10 } := by decide
  exact ⟨_, begun, feed_fails_and_changes_iff begun offered contact⟩

/-- The first contact at the last step fails and leaves its nodes, its start and an addition that is
never deleted. -/
theorem exists_feed_fails_and_changes :
    let contact : Contact := ⟨.text "a", .text "b", 18446744073709551615, 18446744073709551615⟩
    ∃ fresh, Merger.start 10 = .ok fresh ∧
      (fresh.feed contact).1 =
        .error (.invariant (.deleteBeforeAdd contact.pair 18446744073709551615)) ∧
      fresh.timeline = ⟨∅, []⟩ ∧
      (fresh.feed contact).2 = ⟨10, [⟨18446744073709551615, .add, contact.pair⟩],
        Table.ofList [(.text "a", ()), (.text "b", ())], some 18446744073709551615⟩ ∧
      (fresh.feed contact).2.timeline ≠ fresh.timeline := by
  intro contact
  exact ⟨{ pad := 10 }, by decide, by decide +kernel, rfl, by decide +kernel, by decide +kernel⟩

end ContactReplay
