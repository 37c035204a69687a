import ContactReplay.Timeline.Basic
import Mathlib.Topology.Instances.Real.Lemmas
import Mathlib.Topology.Order.IntermediateValue

/-!
# Components of intervals

Seen as stretches of real time, both ends included, intervals may overlap:

* `coverage` is the set of all instants that some interval of a list holds;
* `IsComponent` says that an interval is a connected component of that set.

Two intervals belong to one component as soon as they share an instant, and they do not if one
begins a step after the other has ended.  For intervals that lie apart the components are these
intervals.
-/

namespace ContactReplay

/-- A step as an instant of real time. -/
noncomputable def instant (step : UInt64) : ℝ := step.toNat

theorem instant_le_instant {first second : UInt64} :
    instant first ≤ instant second ↔ first ≤ second := by
  rw [instant, instant, Nat.cast_le, UInt64.le_iff_toNat_le]

theorem instant_lt_instant {first second : UInt64} :
    instant first < instant second ↔ first < second := by
  rw [instant, instant, Nat.cast_lt, UInt64.lt_iff_toNat_lt]

theorem instant_injective : Function.Injective instant := by
  intro first second same
  exact UInt64.toNat_inj.mp (Nat.cast_injective same)

/-- Steps are whole instants, so the one after a step is a whole unit later. -/
theorem instant_add_one_le {first second : UInt64} (before : first < second) :
    instant first + 1 ≤ instant second := by
  have later : first.toNat + 1 ≤ second.toNat := UInt64.lt_iff_toNat_lt.mp before
  rw [instant, instant]
  exact_mod_cast later

namespace Interval

/-- The instants of an interval. -/
def instants (interval : Interval) : Set ℝ :=
  Set.Icc (instant interval.start) (instant interval.stop)

/-- The instants that some interval of a list holds. -/
def coverage (intervals : List Interval) : Set ℝ :=
  {time | ∃ interval ∈ intervals, time ∈ interval.instants}

/-- An interval is one of the connected pieces of what a list of intervals covers. -/
def IsComponent (intervals : List Interval) (interval : Interval) : Prop :=
  ∃ time ∈ coverage intervals,
    connectedComponentIn (coverage intervals) time = interval.instants

/-- One interval ends before the other begins. -/
def Apart (first second : Interval) : Prop :=
  first.stop < second.start ∨ second.stop < first.start

instance : Std.Symm Apart where
  symm _ _ apart := apart.symm

theorem instants_subset_coverage {intervals : List Interval} {interval : Interval}
    (member : interval ∈ intervals) : interval.instants ⊆ coverage intervals := by
  intro time inside
  exact ⟨interval, member, inside⟩

theorem start_mem_instants {interval : Interval} (forward : interval.start ≤ interval.stop) :
    instant interval.start ∈ interval.instants :=
  ⟨le_refl _, instant_le_instant.mpr forward⟩

theorem eq_of_instants_eq {first second : Interval} (forward : first.start ≤ first.stop)
    (same : first.instants = second.instants) : first = second := by
  have firstForward : instant first.start ≤ instant first.stop := instant_le_instant.mpr forward
  have inward := (Set.Icc_subset_Icc_iff firstForward).mp same.subset
  have secondForward : instant second.start ≤ instant second.stop :=
    inward.1.trans (firstForward.trans inward.2)
  have outward := (Set.Icc_subset_Icc_iff secondForward).mp same.superset
  have starts : first.start = second.start :=
    instant_injective (le_antisymm outward.1 inward.1)
  have stops : first.stop = second.stop :=
    instant_injective (le_antisymm inward.2 outward.2)
  cases first
  cases second
  simp_all

/-! ## Intervals that lie apart -/

section LyingApart

variable {intervals : List Interval} (apart : intervals.Pairwise Apart)
  (forward : ∀ interval ∈ intervals, interval.start ≤ interval.stop)
include apart forward

/-- Half a step before an interval begins nothing is covered. -/
theorem not_mem_coverage_before {interval : Interval} (member : interval ∈ intervals) :
    instant interval.start - 1 / 2 ∉ coverage intervals := by
  rintro ⟨other, otherMember, fromStart, toStop⟩
  have intervalForward := instant_le_instant.mpr (forward interval member)
  have different : other ≠ interval := by
    rintro rfl
    linarith
  rcases apart.forall otherMember member different with before | after
  · have gap := instant_add_one_le before
    linarith
  · have gap := instant_add_one_le after
    linarith

theorem not_mem_coverage_after {interval : Interval} (member : interval ∈ intervals) :
    instant interval.stop + 1 / 2 ∉ coverage intervals := by
  rintro ⟨other, otherMember, fromStart, toStop⟩
  have intervalForward := instant_le_instant.mpr (forward interval member)
  have different : other ≠ interval := by
    rintro rfl
    linarith
  rcases apart.forall otherMember member different with before | after
  · have gap := instant_add_one_le before
    linarith
  · have gap := instant_add_one_le after
    linarith

/-- A connected part of what is covered cannot leave the interval that it begins in. -/
theorem subset_instants_of_isPreconnected {interval : Interval} (member : interval ∈ intervals)
    {part : Set ℝ} (connected : IsPreconnected part) (covered : part ⊆ coverage intervals)
    {time : ℝ} (timeInPart : time ∈ part) (inside : time ∈ interval.instants) :
    part ⊆ interval.instants := by
  intro other otherInPart
  have convex := connected.ordConnected
  constructor
  · by_contra outside
    apply not_mem_coverage_before apart forward member
    obtain ⟨holder, holderMember, holds⟩ := covered otherInPart
    have different : holder ≠ interval := by
      rintro rfl
      exact outside holds.1
    apply covered
    apply convex.out otherInPart timeInPart
    rcases apart.forall holderMember member different with before | after
    · have gap := instant_add_one_le before
      exact ⟨by linarith [holds.2], by linarith [inside.1]⟩
    · have gap := instant_add_one_le after
      linarith [holds.1, inside.1, inside.2]
  · by_contra outside
    apply not_mem_coverage_after apart forward member
    obtain ⟨holder, holderMember, holds⟩ := covered otherInPart
    have different : holder ≠ interval := by
      rintro rfl
      exact outside holds.2
    apply covered
    apply convex.out timeInPart otherInPart
    rcases apart.forall holderMember member different with before | after
    · have gap := instant_add_one_le before
      linarith [holds.2, inside.1, inside.2]
    · have gap := instant_add_one_le after
      exact ⟨by linarith [inside.2], by linarith [holds.1]⟩

theorem connectedComponentIn_coverage {interval : Interval} (member : interval ∈ intervals)
    {time : ℝ} (inside : time ∈ interval.instants) :
    connectedComponentIn (coverage intervals) time = interval.instants := by
  have covered : time ∈ coverage intervals := instants_subset_coverage member inside
  apply Set.Subset.antisymm
  · exact subset_instants_of_isPreconnected apart forward member
      isPreconnected_connectedComponentIn (connectedComponentIn_subset _ _)
      (mem_connectedComponentIn covered) inside
  · exact isPreconnected_Icc.subset_connectedComponentIn inside
      (instants_subset_coverage member)

/-- The components of intervals that lie apart are the intervals. -/
theorem isComponent_iff_mem {interval : Interval} :
    IsComponent intervals interval ↔ interval ∈ intervals := by
  constructor
  · rintro ⟨time, ⟨holder, holderMember, inside⟩, component⟩
    have same : holder.instants = interval.instants := by
      rw [← component, connectedComponentIn_coverage apart forward holderMember inside]
    rw [← eq_of_instants_eq (forward holder holderMember) same]
    exact holderMember
  · intro member
    have inside := start_mem_instants (forward interval member)
    exact ⟨instant interval.start, instants_subset_coverage member inside,
      connectedComponentIn_coverage apart forward member inside⟩

end LyingApart

end Interval

end ContactReplay
