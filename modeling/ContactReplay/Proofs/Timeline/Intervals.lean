import ContactReplay.Proofs.Timeline.Outline
import Mathlib.Algebra.BigOperators.Ring.Finset

/-!
# The intervals of a timeline

The intervals of all pairs are found in one pass over the events of all pairs.  Nothing is lost on
the way for a pair whose changes alternate: its events are the two ends of its intervals, one after
the other, and the addition that is still open at the end.

* `Mark.account` lists the marks that intervals and an open addition stand for;
* `Connections.account_followAll` says that following marks adds those of a pair to its account;
* `intervals_lossless` draws the conclusions for whole timelines.
-/

namespace ContactReplay

/-- Changes that begin with an addition and alternate; the last addition may stay without a
deletion. -/
def Change.Alternating : List Change → Prop
  | [] => True
  | [.add] => True
  | .add :: .delete :: rest => Alternating rest
  | _ => False

instance Change.decidableAlternating : DecidablePred Change.Alternating
  | [] => .isTrue trivial
  | [.add] => .isTrue trivial
  | .add :: .delete :: rest => decidableAlternating rest
  | .delete :: _ => .isFalse id
  | .add :: .add :: _ => .isFalse id

namespace Mark

/-! ## Accounts of a pair -/

/-- The addition that has left a pair connected. -/
def opening (pair : Pair NodeName) (since : Option UInt64) : List Mark :=
  since.toList.map fun step => ⟨step, .add, pair⟩

/-- The marks of a pair with these intervals that is connected since then. -/
def account (pair : Pair NodeName) (intervals : List Interval) (since : Option UInt64) :
    List Mark :=
  intervals.flatMap (Interval.marks pair) ++ opening pair since

/-- The step of the last mark if that is an addition. -/
def lastAddition? (marks : List Mark) : Option UInt64 :=
  match marks.getLast? with
  | some ⟨step, .add, _⟩ => some step
  | _ => none

variable {pair : Pair NodeName} {intervals : List Interval} {since : Option UInt64}

theorem lastAddition?_account : lastAddition? (account pair intervals since) = since := by
  cases since with
  | some step =>
      have last : (account pair intervals (some step)).getLast? = some ⟨step, .add, pair⟩ :=
        List.getLast?_concat
      rw [lastAddition?, last]
  | none =>
      rw [account, opening, Option.toList_none, List.map_nil, List.append_nil]
      rcases List.eq_nil_or_concat intervals with rfl | ⟨earlier, latest, rfl⟩
      · rfl
      · have last : ((earlier ++ [latest]).flatMap (Interval.marks pair)).getLast? =
            some ⟨latest.stop, .delete, pair⟩ := by
          simp [List.flatMap_append, Interval.marks]
        rw [lastAddition?, List.concat_eq_append, last]

theorem length_account :
    (account pair intervals since).length = 2 * intervals.length + since.toList.length := by
  rw [account, List.length_append, opening, List.length_map]
  congr 1
  induction intervals with
  | nil => rfl
  | cons interval rest inductionHypothesis =>
      rw [List.flatMap_cons, List.length_append, inductionHypothesis, List.length_cons,
        Nat.mul_succ, Nat.add_comm]
      rfl

theorem map_step_account :
    (account pair intervals since).map (·.step) =
      intervals.flatMap (fun interval => [interval.start, interval.stop]) ++ since.toList := by
  rw [account, List.map_append, List.map_flatMap, opening, List.map_map]
  exact congrArg _ (List.map_id _)

/-- The intervals of an account in the order of the steps ascend. -/
theorem Sorted.intervals_ascending (sorted : Sorted (account pair intervals since)) :
    intervals.Pairwise (fun earlier later => earlier.stop ≤ later.start) ∧
      ∀ interval ∈ intervals, interval.start ≤ interval.stop := by
  obtain ⟨each, between⟩ := List.pairwise_flatMap.mp (List.pairwise_append.mp sorted).1
  constructor
  · exact between.imp fun {earlier later} ordered =>
      ordered ⟨earlier.stop, .delete, pair⟩ (by simp [Interval.marks])
        ⟨later.start, .add, pair⟩ (by simp [Interval.marks])
  · intro interval member
    exact List.rel_of_pairwise_cons (each interval member) List.mem_cons_self

theorem about_cons (mark : Mark) (rest : List Mark) :
    about pair (mark :: rest) = about pair [mark] ++ about pair rest :=
  List.filter_append [mark] rest

end Mark

/-! ## Following marks -/

namespace Connections

variable {connections : Connections} {pair : Pair NodeName}

/-- The marks of a pair that connections tell of. -/
def account (connections : Connections) (pair : Pair NodeName) : List Mark :=
  Mark.account pair (connections.intervalsOf pair) (connections.since.get? pair)

/-- Marks of a pair can come next: with the addition that is open their changes alternate. -/
def Awaits (connections : Connections) (pair : Pair NodeName) (marks : List Mark) : Prop :=
  Change.Alternating ((Mark.opening pair (connections.since.get? pair) ++ marks).map
    fun mark => mark.event.change)

theorem follow_of_ne (connections : Connections) {mark : Mark}
    (different : pair ≠ mark.event.pair) :
    (connections.follow mark).since.get? pair = connections.since.get? pair ∧
      (connections.follow mark).intervalsOf pair = connections.intervalsOf pair := by
  obtain ⟨step, change, other⟩ := mark
  cases change with
  | add => exact ⟨Table.get?_insert_of_ne _ _ different, rfl⟩
  | delete =>
      cases connected : connections.since.get? other with
      | none => simp only [follow, connected, and_self]
      | some start =>
          simp only [follow, connected, intervalsOf]
          rw [Table.get?_erase_of_ne _ different, Table.get?_insert_of_ne _ _ different]
          exact ⟨rfl, rfl⟩

theorem follow_add (connections : Connections) (pair : Pair NodeName) (step : UInt64) :
    (connections.follow ⟨step, .add, pair⟩).since.get? pair = some step ∧
      (connections.follow ⟨step, .add, pair⟩).intervalsOf pair = connections.intervalsOf pair :=
  ⟨Table.get?_insert_self _ _ _, rfl⟩

theorem follow_delete {start : UInt64} (connected : connections.since.get? pair = some start)
    (step : UInt64) :
    (connections.follow ⟨step, .delete, pair⟩).since.get? pair = none ∧
      (connections.follow ⟨step, .delete, pair⟩).intervalsOf pair =
        connections.intervalsOf pair ++ [⟨start, step⟩] := by
  simp only [follow, connected, intervalsOf]
  rw [Table.get?_erase_self, Table.get?_insert_self]
  exact ⟨rfl, rfl⟩

/-- A mark that comes in turn is added to the account of its pair and to no other one. -/
theorem account_follow {mark : Mark} {rest : List Mark}
    (awaited : connections.Awaits pair (Mark.about pair (mark :: rest))) :
    (connections.follow mark).account pair = connections.account pair ++ Mark.about pair [mark] ∧
      (connections.follow mark).Awaits pair (Mark.about pair rest) := by
  by_cases same : pair = mark.event.pair
  · obtain ⟨step, change, other⟩ := mark
    obtain rfl : pair = other := same
    have itself : Mark.about pair [⟨step, change, pair⟩] = [⟨step, change, pair⟩] := by
      simp [Mark.about]
    rw [Mark.about_cons, itself] at awaited
    rw [itself, account, account, Awaits]
    cases change with
    | add =>
        cases connected : connections.since.get? pair with
        | some start =>
            rw [Awaits, connected] at awaited
            exact awaited.elim
        | none =>
            rw [Awaits, connected] at awaited
            obtain ⟨opened, kept⟩ := follow_add connections pair step
            rw [opened, kept, Mark.account, Mark.account, List.append_assoc]
            exact ⟨rfl, awaited⟩
    | delete =>
        cases connected : connections.since.get? pair with
        | none =>
            rw [Awaits, connected] at awaited
            exact awaited.elim
        | some start =>
            rw [Awaits, connected] at awaited
            obtain ⟨parted, grown⟩ := follow_delete connected step
            rw [parted, grown, Mark.account, Mark.account, List.flatMap_append, List.append_assoc,
              List.append_assoc]
            exact ⟨rfl, awaited⟩
  · have others : Mark.about pair [mark] = [] := by simp [Mark.about, Ne.symm same]
    rw [Mark.about_cons, others, List.nil_append] at awaited
    obtain ⟨sameSince, sameIntervals⟩ := follow_of_ne connections same
    rw [others, List.append_nil, account, account, Awaits, sameSince, sameIntervals]
    exact ⟨rfl, awaited⟩

/-- Following marks adds those of a pair that come in turn to its account, whatever the marks of
other pairs in between. -/
theorem account_followAll {marks : List Mark}
    (awaited : connections.Awaits pair (Mark.about pair marks)) :
    (connections.followAll marks).account pair =
      connections.account pair ++ Mark.about pair marks := by
  induction marks generalizing connections with
  | nil => exact (List.append_nil _).symm
  | cons mark rest inductionHypothesis =>
      obtain ⟨followed, restAwaited⟩ := account_follow awaited
      have later := inductionHypothesis restAwaited
      rw [followed, List.append_assoc, ← Mark.about_cons] at later
      exact later

end Connections

namespace Timeline

/-! ## Whole timelines -/

variable (timeline : Timeline)

/-- The intervals of a pair; none if the pair is not listed. -/
def intervalsOf (pair : Pair NodeName) : List Interval :=
  (Table.lookup pair timeline.intervals).getD []

/-- The step of the addition of a pair that no deletion follows. -/
def openSince? (pair : Pair NodeName) : Option UInt64 :=
  Mark.lastAddition? (timeline.marksOf pair)

def pairs : Finset (Pair NodeName) := (timeline.marks.map fun mark => mark.event.pair).toFinset

def openPairs : Finset (Pair NodeName) :=
  timeline.pairs.filter fun pair => (timeline.openSince? pair).isSome

/-- The events at a step in order. -/
def eventsAt (step : UInt64) : List Event :=
  (timeline.moments.filter fun moment => moment.step = step).flatMap (·.events)

/-- The steps ascend, and the changes of each pair alternate. -/
structure WellFormed : Prop where
  ascending : timeline.moments.Pairwise fun earlier later => earlier.step < later.step
  alternating : ∀ pair,
    Change.Alternating ((timeline.marksOf pair).map fun mark => mark.event.change)

variable {timeline}

theorem mem_pairs_iff {pair : Pair NodeName} :
    pair ∈ timeline.pairs ↔ timeline.marksOf pair ≠ [] := by
  simp [pairs, marksOf]

theorem wellFormed_iff : timeline.WellFormed ↔
    (timeline.moments.Pairwise fun earlier later => earlier.step < later.step) ∧
      ∀ pair ∈ timeline.pairs,
        Change.Alternating ((timeline.marksOf pair).map fun mark => mark.event.change) := by
  constructor
  · exact fun ⟨ascending, alternating⟩ => ⟨ascending, fun pair _ => alternating pair⟩
  · rintro ⟨ascending, alternating⟩
    refine ⟨ascending, fun pair => ?_⟩
    by_cases listed : pair ∈ timeline.pairs
    · exact alternating pair listed
    · rw [mem_pairs_iff, not_ne_iff] at listed
      rw [listed]
      trivial

instance : Decidable timeline.WellFormed := decidable_of_iff' _ wellFormed_iff

theorem marks_sorted
    (ascending : timeline.moments.Pairwise fun earlier later => earlier.step < later.step) :
    Mark.Sorted timeline.marks := by
  refine List.pairwise_flatMap.mpr ⟨fun moment _ => ?_, ascending.imp ?_⟩
  · exact List.pairwise_map.mpr (List.pairwise_of_forall fun _ _ => UInt64.le_refl _)
  · intro earlier later before first firstMember second secondMember
    rw [Moment.step_of_mem_marks firstMember, Moment.step_of_mem_marks secondMember]
    exact UInt64.le_of_lt before

/-- The marks of a pair whose changes alternate are those of its intervals and of the addition that
is open. -/
theorem marksOf_eq_account {pair : Pair NodeName}
    (alternating :
      Change.Alternating ((timeline.marksOf pair).map fun mark => mark.event.change)) :
    timeline.marksOf pair =
      Mark.account pair (timeline.intervalsOf pair) (timeline.openSince? pair) := by
  have awaited : ({} : Connections).Awaits pair (Mark.about pair timeline.marks) := alternating
  have followed : Mark.account pair (timeline.intervalsOf pair)
      ((Connections.followAll {} timeline.marks).since.get? pair) = timeline.marksOf pair :=
    Connections.account_followAll awaited
  rw [openSince?, ← followed, Mark.lastAddition?_account]

/-! ## Counting -/

theorem eventCount_eq_sum :
    timeline.eventCount = ∑ pair ∈ timeline.pairs, (timeline.marksOf pair).length := by
  rw [eventCount, ← List.length_map (fun mark : Mark => mark.event.pair),
    ← List.sum_toFinset_count_eq_length]
  refine Finset.sum_congr rfl fun pair _ => ?_
  rw [List.count, List.countP_map, List.countP_eq_length_filter, marksOf]
  rfl

theorem intervalsOf_of_mem {entry : Pair NodeName × List Interval}
    (listed : entry ∈ timeline.intervals) : timeline.intervalsOf entry.1 = entry.2 := by
  have found : (Connections.followAll {} timeline.marks).ended.get? entry.1 = some entry.2 :=
    Table.get?_eq_some_iff.mpr listed
  exact congrArg (Option.getD · []) found

theorem intervalsOf_of_not_mem {pair : Pair NodeName}
    (unlisted : pair ∉ (Connections.followAll {} timeline.marks).ended.keys) :
    timeline.intervalsOf pair = [] := by
  have nothing : (Connections.followAll {} timeline.marks).ended.get? pair = none :=
    Option.eq_none_iff_forall_ne_some.mpr fun intervals found =>
      unlisted (Table.mem_keys_iff.mpr ⟨intervals, found⟩)
  exact congrArg (Option.getD · []) nothing

theorem sum_length_intervals
    (unlisted : ∀ pair ∉ timeline.pairs, timeline.intervalsOf pair = []) :
    (timeline.intervals.map fun entry => entry.2.length).sum =
      ∑ pair ∈ timeline.pairs, (timeline.intervalsOf pair).length := by
  set table := (Connections.followAll {} timeline.marks).ended
  -- Neither the listed pairs nor those with events are known to be among the others here, so both
  -- sums are compared with the one over all of them.
  calc (timeline.intervals.map fun entry => entry.2.length).sum
      = (table.keys.map fun pair => (timeline.intervalsOf pair).length).sum := by
        rw [Table.keys, List.map_map]
        exact congrArg List.sum (List.map_congr_left fun entry listed =>
          congrArg List.length (intervalsOf_of_mem listed).symm)
    _ = ∑ pair ∈ table.keys.toFinset, (timeline.intervalsOf pair).length :=
        (List.sum_toFinset _ table.keys_nodup).symm
    _ = ∑ pair ∈ table.keys.toFinset ∪ timeline.pairs, (timeline.intervalsOf pair).length :=
        Finset.sum_subset Finset.subset_union_left fun pair _ absent =>
          congrArg List.length (intervalsOf_of_not_mem (mt List.mem_toFinset.mpr absent))
    _ = ∑ pair ∈ timeline.pairs, (timeline.intervalsOf pair).length :=
        (Finset.sum_subset Finset.subset_union_right fun pair _ absent =>
          congrArg List.length (unlisted pair absent)).symm

theorem card_openPairs :
    timeline.openPairs.card =
      ∑ pair ∈ timeline.pairs, (timeline.openSince? pair).toList.length := by
  rw [openPairs, Finset.card_filter]
  refine Finset.sum_congr rfl fun pair _ => ?_
  cases timeline.openSince? pair <;> rfl

namespace WellFormed

theorem eventCount_eq (wellFormed : timeline.WellFormed) :
    timeline.eventCount =
      2 * (timeline.intervals.map fun entry => entry.2.length).sum + timeline.openPairs.card := by
  have lengths : ∀ pair, (timeline.marksOf pair).length =
      2 * (timeline.intervalsOf pair).length + (timeline.openSince? pair).toList.length := by
    intro pair
    rw [marksOf_eq_account (wellFormed.alternating pair), Mark.length_account]
  have unlisted : ∀ pair ∉ timeline.pairs, timeline.intervalsOf pair = [] := by
    intro pair absent
    rw [mem_pairs_iff, not_ne_iff] at absent
    have nothing := lengths pair
    rw [absent, List.length_nil] at nothing
    exact List.length_eq_zero_iff.mp (by omega)
  rw [eventCount_eq_sum, sum_length_intervals unlisted, card_openPairs, Finset.mul_sum,
    ← Finset.sum_add_distrib]
  exact Finset.sum_congr rfl fun pair _ => lengths pair

theorem intervals_ascending (wellFormed : timeline.WellFormed) (pair : Pair NodeName) :
    (timeline.intervalsOf pair).Pairwise (fun earlier later => earlier.stop ≤ later.start) ∧
      ∀ interval ∈ timeline.intervalsOf pair, interval.start ≤ interval.stop := by
  have sorted : Mark.Sorted (timeline.marksOf pair) :=
    (marks_sorted wellFormed.ascending).about pair
  rw [marksOf_eq_account (wellFormed.alternating pair)] at sorted
  exact sorted.intervals_ascending

end WellFormed

/-! ## Timelines with the same intervals -/

theorem eventsAt_eq (timeline : Timeline) (step : UInt64) :
    timeline.eventsAt step =
      (timeline.marks.filter fun mark => mark.step = step).map (·.event) := by
  rw [eventsAt, ← Moment.map_event_marks, Moment.marks_filter (· = step), marks]

/-- Marks that are the same for every pair are the same up to their order. -/
theorem marks_perm {other : Timeline} (same : ∀ pair, timeline.marksOf pair = other.marksOf pair) :
    timeline.marks.Perm other.marks := by
  refine List.perm_iff_count.mpr fun mark => ?_
  have counted : ∀ listed : Timeline,
      (listed.marksOf mark.event.pair).count mark = listed.marks.count mark :=
    fun listed => List.count_filter (by simp)
  rw [← counted timeline, ← counted other, same]

theorem openSince?_eq_none (closed : timeline.openPairs = ∅) (pair : Pair NodeName) :
    timeline.openSince? pair = none := by
  by_contra opened
  have listed : pair ∈ timeline.pairs := by
    rw [mem_pairs_iff]
    intro nothing
    exact opened (congrArg Mark.lastAddition? nothing)
  have member : pair ∈ timeline.openPairs :=
    Finset.mem_filter.mpr ⟨listed, Option.isSome_iff_ne_none.mpr opened⟩
  rw [closed] at member
  exact Finset.notMem_empty pair member

theorem WellFormed.eventsAt_perm {other : Timeline} (wellFormed : timeline.WellFormed)
    (otherWellFormed : other.WellFormed) (closed : timeline.openPairs = ∅)
    (otherClosed : other.openPairs = ∅) (same : timeline.intervals = other.intervals)
    (step : UInt64) : (timeline.eventsAt step).Perm (other.eventsAt step) := by
  have sameMarks : ∀ pair, timeline.marksOf pair = other.marksOf pair := by
    intro pair
    rw [marksOf_eq_account (wellFormed.alternating pair),
      marksOf_eq_account (otherWellFormed.alternating pair), openSince?_eq_none closed,
      openSince?_eq_none otherClosed, intervalsOf, intervalsOf, same]
  rw [eventsAt_eq, eventsAt_eq]
  exact ((marks_perm sameMarks).filter _).map _

/-- The intervals of a timeline and the additions that are open tell of all its events. -/
structure Recounted (timeline : Timeline) : Prop where
  steps : ∀ pair, (timeline.marksOf pair).map (·.step) =
    (timeline.intervalsOf pair).flatMap (fun interval => [interval.start, interval.stop]) ++
      (timeline.openSince? pair).toList
  eventCount : timeline.eventCount =
    2 * (timeline.intervals.map fun entry => entry.2.length).sum + timeline.openPairs.card
  ascending : ∀ pair,
    (timeline.intervalsOf pair).Pairwise (fun earlier later => earlier.stop ≤ later.start) ∧
      ∀ interval ∈ timeline.intervalsOf pair, interval.start ≤ interval.stop

/-- The intervals of a timeline that is well-formed lose nothing: its events can be recounted from
them, and timelines with the same intervals and no open pair have the same events at every step,
up to their order. -/
theorem intervals_lossless (wellFormed : timeline.WellFormed) :
    timeline.Recounted ∧
      ∀ other : Timeline, other.WellFormed → timeline.openPairs = ∅ → other.openPairs = ∅ →
        timeline.intervals = other.intervals →
        ∀ step, (timeline.eventsAt step).Perm (other.eventsAt step) := by
  refine ⟨⟨fun pair => ?_, wellFormed.eventCount_eq, wellFormed.intervals_ascending⟩, ?_⟩
  · rw [marksOf_eq_account (wellFormed.alternating pair), Mark.map_step_account]
  · intro other otherWellFormed closed otherClosed same
    exact wellFormed.eventsAt_perm otherWellFormed closed otherClosed same

/-- Two timelines in which a pair meets twice at one step and another pair meets before or after it,
and one in which a pair meets again at the end and does not part. -/
theorem intervals_lossless_crowded :
    let first : Pair NodeName := .of (.text "a") (.text "b")
    let second : Pair NodeName := .of (.text "c") (.text "d")
    let twice : List Event := [⟨.add, first⟩, ⟨.delete, first⟩, ⟨.add, first⟩, ⟨.delete, first⟩]
    let timeline : Timeline := ⟨{}, [⟨1, twice ++ [⟨.add, second⟩]⟩, ⟨3, [⟨.delete, second⟩]⟩]⟩
    let other : Timeline :=
      ⟨{}, [⟨1, ⟨.add, second⟩ :: twice⟩, ⟨2, []⟩, ⟨3, [⟨.delete, second⟩]⟩]⟩
    let lasting : Timeline := ⟨{}, [⟨1, twice⟩, ⟨2, [⟨.add, first⟩]⟩]⟩
    timeline.WellFormed ∧ other.WellFormed ∧ timeline.openPairs = ∅ ∧ other.openPairs = ∅ ∧
      timeline.intervals = [(first, [⟨1, 1⟩, ⟨1, 1⟩]), (second, [⟨1, 3⟩])] ∧
      timeline.intervals = other.intervals ∧
      (∀ step, (timeline.eventsAt step).Perm (other.eventsAt step)) ∧
      lasting.WellFormed ∧ lasting.openPairs = {first} ∧ lasting.Recounted := by
  intro first second twice timeline other lasting
  have wellFormed : timeline.WellFormed := by decide +kernel
  have otherWellFormed : other.WellFormed := by decide +kernel
  have lastingWellFormed : lasting.WellFormed := by decide +kernel
  have closed : timeline.openPairs = ∅ := by decide +kernel
  have otherClosed : other.openPairs = ∅ := by decide +kernel
  have same : timeline.intervals = other.intervals := by decide +kernel
  exact ⟨wellFormed, otherWellFormed, closed, otherClosed, by decide +kernel, same,
    (intervals_lossless wellFormed).2 other otherWellFormed closed otherClosed same,
    lastingWellFormed, by decide +kernel, (intervals_lossless lastingWellFormed).1⟩

end Timeline

end ContactReplay
