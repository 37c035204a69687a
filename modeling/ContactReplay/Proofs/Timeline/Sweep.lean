import ContactReplay.Proofs.Timeline.Component

/-!
# Sweeping over intervals

Intervals that come in the order of their starts are joined one after the other:

* `absorb` takes the next interval in.  It begins a new stretch, lies in the latest one or makes
  the latest one longer;
* `Swept` is what holds of the stretches at any time: newest first, they lie apart and have a
  duration, and none begins after the start that the sweep has reached;
* `coverage_sweep` says that the stretches in the end cover what the intervals cover.
-/

namespace ContactReplay.Interval

/-- Join the next interval to the stretches so far, of which the newest is first. -/
def absorb (stretches : List Interval) (next : Interval) : List Interval :=
  match stretches with
  | [] => [next]
  | latest :: earlier =>
      if latest.stop < next.start then next :: latest :: earlier
      else if next.stop ≤ latest.stop then latest :: earlier
      else ⟨latest.start, next.stop⟩ :: earlier

/-- The stretches of intervals that come in the order of their starts, the newest first. -/
def sweep (intervals : List Interval) : List Interval := intervals.foldl absorb []

/-- Stretches after a sweep that has reached a start. -/
structure Swept (reached : UInt64) (stretches : List Interval) : Prop where
  apart : stretches.Pairwise fun later earlier => earlier.stop < later.start
  lasting : ∀ stretch ∈ stretches, stretch.start < stretch.stop
  begun : ∀ stretch ∈ stretches, stretch.start ≤ reached

theorem coverage_cons (interval : Interval) (intervals : List Interval) :
    coverage (interval :: intervals) = interval.instants ∪ coverage intervals := by
  ext time
  simp [coverage]

theorem swept_nil (reached : UInt64) : Swept reached [] :=
  ⟨.nil, by simp, by simp⟩

namespace Swept

variable {reached : UInt64} {stretches : List Interval}

theorem tail {latest : Interval} (swept : Swept reached (latest :: stretches)) :
    Swept reached stretches where
  apart := (List.pairwise_cons.mp swept.apart).2
  lasting stretch member := swept.lasting stretch (List.mem_cons_of_mem _ member)
  begun stretch member := swept.begun stretch (List.mem_cons_of_mem _ member)

theorem mono (swept : Swept reached stretches) {further : UInt64} (later : reached ≤ further) :
    Swept further stretches where
  apart := swept.apart
  lasting := swept.lasting
  begun stretch member := UInt64.le_trans (swept.begun stretch member) later

theorem cons (swept : Swept reached stretches) (next : Interval)
    (later : reached ≤ next.start) (lasting : next.start < next.stop)
    (ended : ∀ stretch ∈ stretches, stretch.stop < next.start) :
    Swept next.start (next :: stretches) where
  apart := List.pairwise_cons.mpr ⟨ended, swept.apart⟩
  lasting stretch member := by
    rcases List.mem_cons.mp member with rfl | old
    · exact lasting
    · exact swept.lasting stretch old
  begun stretch member := by
    rcases List.mem_cons.mp member with rfl | old
    · exact UInt64.le_refl _
    · exact UInt64.le_trans (swept.begun stretch old) later

/-- All stretches before the latest one have ended when it begins. -/
theorem ended_before {latest : Interval} (swept : Swept reached (latest :: stretches))
    {stretch : Interval} (member : stretch ∈ stretches) : stretch.stop < latest.start :=
  (List.pairwise_cons.mp swept.apart).1 stretch member

theorem ended_all {latest : Interval} (swept : Swept reached (latest :: stretches))
    {step : UInt64} (ended : latest.stop < step) :
    ∀ stretch ∈ latest :: stretches, stretch.stop < step := by
  intro stretch member
  rcases List.mem_cons.mp member with rfl | old
  · exact ended
  · have before := swept.ended_before old
    have lasting := swept.lasting latest List.mem_cons_self
    exact UInt64.lt_trans before (UInt64.lt_trans lasting ended)

/-- Taking the next interval in keeps the stretches in order. -/
theorem absorb (swept : Swept reached stretches) {next : Interval} (later : reached ≤ next.start)
    (lasting : next.start < next.stop) : Swept next.start (absorb stretches next) := by
  cases stretches with
  | nil => exact swept.cons next later lasting (by simp)
  | cons latest earlier =>
      simp only [Interval.absorb]
      split
      · rename_i ended
        exact swept.cons next later lasting (swept.ended_all ended)
      · split
        · exact swept.mono later
        · rename_i reaches longer
          have begun := swept.begun latest List.mem_cons_self
          have latestLasts := swept.lasting latest List.mem_cons_self
          have stillLasts : latest.start < next.stop :=
            UInt64.lt_trans latestLasts (UInt64.not_le.mp longer)
          have before : Swept latest.start earlier :=
            ⟨swept.tail.apart, swept.tail.lasting, fun stretch member =>
              UInt64.le_of_lt <| UInt64.lt_trans (swept.tail.lasting stretch member)
                (swept.ended_before member)⟩
          have extended : Swept latest.start (⟨latest.start, next.stop⟩ :: earlier) :=
            before.cons ⟨latest.start, next.stop⟩ (UInt64.le_refl _) stillLasts
              fun stretch member => swept.ended_before member
          exact extended.mono (UInt64.le_trans begun later)

/-- Taking the next interval in covers just what it adds. -/
theorem coverage_absorb (swept : Swept reached stretches) {next : Interval}
    (later : reached ≤ next.start) (lasting : next.start < next.stop) :
    coverage (Interval.absorb stretches next) = coverage (next :: stretches) := by
  cases stretches with
  | nil => rfl
  | cons latest earlier =>
      simp only [Interval.absorb]
      split
      · rfl
      · rename_i reaches
        have begun : latest.start ≤ next.start :=
          UInt64.le_trans (swept.begun latest List.mem_cons_self) later
        have touching : instant next.start ≤ instant latest.stop :=
          instant_le_instant.mpr (UInt64.not_lt.mp reaches)
        have starts := instant_le_instant.mpr begun
        have lasts := instant_lt_instant.mpr lasting
        simp only [coverage_cons, ← Set.union_assoc]
        split
        · rename_i inside
          have within : next.instants ⊆ latest.instants :=
            Set.Icc_subset_Icc (instant_le_instant.mpr begun) (instant_le_instant.mpr inside)
          rw [coverage_cons, Set.union_eq_self_of_subset_left within]
        · rename_i longer
          have stops := instant_le_instant.mpr (UInt64.le_of_lt (UInt64.not_le.mp longer))
          have joined : latest.instants ∪ next.instants =
              Set.Icc (instant latest.start) (instant next.stop) := by
            rw [instants, instants, Set.Icc_union_Icc' touching (starts.trans (lasts.le)),
              min_eq_left starts, max_eq_right stops]
          rw [coverage_cons, Set.union_comm next.instants, joined]
          rfl

end Swept

/-! ## Whole sweeps -/

/-- Intervals that have a duration and come in the order of their starts. -/
structure Orderly (intervals : List Interval) : Prop where
  ordered : intervals.Pairwise fun earlier later => earlier.start ≤ later.start
  lasting : ∀ interval ∈ intervals, interval.start < interval.stop

namespace Orderly

variable {intervals : List Interval} {next : Interval}

theorem init (orderly : Orderly (intervals ++ [next])) : Orderly intervals where
  ordered := (List.pairwise_append.mp orderly.ordered).1
  lasting interval member := orderly.lasting interval (List.mem_append_left _ member)

theorem le_last (orderly : Orderly (intervals ++ [next])) :
    ∀ interval ∈ intervals, interval.start ≤ next.start := by
  intro interval member
  have across := (List.pairwise_append.mp orderly.ordered).2.2
  exact across interval member next List.mem_cons_self

theorem last_lasting (orderly : Orderly (intervals ++ [next])) : next.start < next.stop :=
  orderly.lasting next (List.mem_append_right _ List.mem_cons_self)

end Orderly

theorem sweep_concat (intervals : List Interval) (next : Interval) :
    sweep (intervals ++ [next]) = absorb (sweep intervals) next := by
  simp [sweep, List.foldl_append]

theorem swept_sweep {intervals : List Interval} (orderly : Orderly intervals) {reached : UInt64}
    (bounded : ∀ interval ∈ intervals, interval.start ≤ reached) :
    Swept reached (sweep intervals) := by
  induction intervals using List.reverseRecOn generalizing reached with
  | nil => exact swept_nil reached
  | append_singleton init next inductionHypothesis =>
      rw [sweep_concat]
      have before := inductionHypothesis orderly.init orderly.le_last
      have after := before.absorb (UInt64.le_refl _) orderly.last_lasting
      exact after.mono (bounded next (List.mem_append_right _ List.mem_cons_self))

theorem coverage_append (first second : List Interval) :
    coverage (first ++ second) = coverage first ∪ coverage second := by
  ext time
  simp [coverage, or_and_right, exists_or]

theorem coverage_sweep {intervals : List Interval} (orderly : Orderly intervals) :
    coverage (sweep intervals) = coverage intervals := by
  induction intervals using List.reverseRecOn with
  | nil => rfl
  | append_singleton init next inductionHypothesis =>
      have before := swept_sweep orderly.init orderly.le_last
      rw [sweep_concat, before.coverage_absorb (UInt64.le_refl _) orderly.last_lasting,
        coverage_cons, inductionHypothesis orderly.init, coverage_append, coverage_cons,
        Set.union_comm]
      simp [coverage]

theorem isComponent_congr {first second : List Interval} (same : coverage first = coverage second)
    (interval : Interval) : IsComponent first interval ↔ IsComponent second interval := by
  rw [IsComponent, IsComponent, same]

theorem Orderly.swept {intervals : List Interval} (orderly : Orderly intervals) :
    Swept (0 - 1) (sweep intervals) := by
  apply swept_sweep orderly
  intro interval _
  have bound := interval.start.toNat_lt
  have largest : (0 - 1 : UInt64).toNat = 2 ^ 64 - 1 := by decide
  rw [UInt64.le_iff_toNat_le, largest]
  omega

end ContactReplay.Interval
