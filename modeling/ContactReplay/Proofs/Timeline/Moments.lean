import ContactReplay.Timeline.Merger

/-!
# Moments of sorted marks

`Mark.moments` gathers neighbouring marks of one step.  It loses no mark, leaves no moment empty and
gives every step one moment if the marks are sorted.
-/

namespace ContactReplay

namespace Moment

theorem step_of_mem_marks {moment : Moment} {mark : Mark} (member : mark ∈ moment.marks) :
    mark.step = moment.step := by
  obtain ⟨_, -, rfl⟩ := List.mem_map.mp member
  rfl

theorem map_event_marks (moments : List Moment) :
    (moments.flatMap Moment.marks).map (·.event) = moments.flatMap (·.events) := by
  simp [Moment.marks, List.map_flatMap, Function.comp_def]

/-- Leaving out steps leaves out the marks at these steps. -/
theorem marks_filter (keep : UInt64 → Bool) (moments : List Moment) :
    (moments.filter fun moment => keep moment.step).flatMap Moment.marks =
      (moments.flatMap Moment.marks).filter fun mark => keep mark.step := by
  induction moments with
  | nil => rfl
  | cons moment rest inductionHypothesis =>
      rw [List.filter_cons, List.flatMap_cons, List.filter_append, ← inductionHypothesis]
      cases kept : keep moment.step with
      | true =>
          have all : (moment.marks.filter fun mark => keep mark.step) = moment.marks :=
            List.filter_eq_self.mpr fun mark member => by rw [step_of_mem_marks member, kept]
          rw [if_pos rfl, List.flatMap_cons, all]
      | false =>
          have none : (moment.marks.filter fun mark => keep mark.step) = [] :=
            List.filter_eq_nil_iff.mpr fun mark member => by
              rw [step_of_mem_marks member, kept]
              exact Bool.false_ne_true
          rw [if_neg Bool.false_ne_true, none, List.nil_append]

end Moment

namespace Mark

/-- Marks in the order of their steps. -/
def Sorted (marks : List Mark) : Prop :=
  marks.Pairwise fun earlier later => earlier.step ≤ later.step

theorem marks_moments (marks : List Mark) : (moments marks).flatMap Moment.marks = marks := by
  induction marks with
  | nil => rfl
  | cons mark rest inductionHypothesis =>
      simp only [moments]
      split
      · rename_i moment later shape
        rw [shape] at inductionHypothesis
        split
        · rename_i same
          rw [← inductionHypothesis]
          simp [Moment.marks, same]
        · rw [← inductionHypothesis]
          simp [Moment.marks]
      · rename_i shape
        rw [shape] at inductionHypothesis
        rw [← inductionHypothesis]
        simp [Moment.marks]

theorem events_ne_nil_of_mem_moments {marks : List Mark} :
    ∀ moment ∈ moments marks, moment.events ≠ [] := by
  induction marks with
  | nil => simp [moments]
  | cons mark rest inductionHypothesis =>
      simp only [moments]
      split
      · rename_i current later shape
        rw [shape] at inductionHypothesis
        split
        · intro moment member
          rcases List.mem_cons.mp member with rfl | inLater
          · simp
          · exact inductionHypothesis moment (List.mem_cons_of_mem _ inLater)
        · intro moment member
          rcases List.mem_cons.mp member with rfl | inRest
          · simp
          · exact inductionHypothesis moment inRest
      · simp

theorem exists_mem_of_mem_moments {marks : List Mark} {moment : Moment}
    (member : moment ∈ moments marks) : ∃ mark ∈ marks, mark.step = moment.step := by
  obtain ⟨event, rest, events⟩ :=
    List.exists_cons_of_ne_nil (events_ne_nil_of_mem_moments moment member)
  refine ⟨⟨moment.step, event⟩, ?_, rfl⟩
  rw [← marks_moments marks]
  exact List.mem_flatMap.mpr ⟨moment, member, by simp [Moment.marks, events]⟩

theorem moments_ascending {marks : List Mark} (sorted : Sorted marks) :
    (moments marks).Pairwise fun earlier later => earlier.step < later.step := by
  induction marks with
  | nil => exact .nil
  | cons mark rest inductionHypothesis =>
      obtain ⟨below, restSorted⟩ := List.pairwise_cons.mp sorted
      have ascending := inductionHypothesis restSorted
      simp only [moments]
      split
      · rename_i current later shape
        have currentBelow : mark.step ≤ current.step := by
          obtain ⟨other, otherMember, same⟩ := exists_mem_of_mem_moments
            (shape ▸ List.mem_cons_self : current ∈ moments rest)
          exact same ▸ below other otherMember
        rw [shape] at ascending
        obtain ⟨laterAbove, laterAscending⟩ := List.pairwise_cons.mp ascending
        split
        · exact List.pairwise_cons.mpr ⟨laterAbove, laterAscending⟩
        · rename_i different
          have strictly : mark.step < current.step :=
            UInt64.lt_of_le_of_ne currentBelow fun same => different same.symm
          refine List.pairwise_cons.mpr ⟨fun moment member => ?_, ascending⟩
          rcases List.mem_cons.mp member with rfl | inLater
          · exact strictly
          · exact UInt64.lt_trans strictly (laterAbove moment inLater)
      · exact List.pairwise_singleton _ _

end Mark

end ContactReplay
