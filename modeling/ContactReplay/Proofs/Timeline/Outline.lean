import ContactReplay.Proofs.Timeline.Marks
import ContactReplay.Proofs.Timeline.Sweep

/-!
# The marks of stretches

The marks of one pair come in twos, an addition and the deletion after it.  `outline` writes down
the marks of stretches, and `join?_outline` says that joining a contact to them is taking the
contact's interval into the sweep: the backward and forward searches among the marks find out
whether the contact lies after the latest stretch, in it or over its end.
-/

namespace ContactReplay

/-- The marks at the two ends of an interval. -/
def Interval.marks (pair : Pair NodeName) (interval : Interval) : List Mark :=
  [⟨interval.start, .add, pair⟩, ⟨interval.stop, .delete, pair⟩]

namespace Mark

/-- The marks of stretches of which the newest is first. -/
def outline (pair : Pair NodeName) (stretches : List Interval) : List Mark :=
  stretches.reverse.flatMap (Interval.marks pair)

@[simp]
theorem outline_nil (pair : Pair NodeName) : outline pair [] = [] := rfl

theorem outline_cons (pair : Pair NodeName) (latest : Interval) (earlier : List Interval) :
    outline pair (latest :: earlier) = outline pair earlier ++ latest.marks pair := by
  simp [outline, List.flatMap_append]

theorem outline_cons_split (pair : Pair NodeName) (latest : Interval) (earlier : List Interval) :
    outline pair (latest :: earlier) =
      (outline pair earlier ++ [⟨latest.start, .add, pair⟩]) ++
        [⟨latest.stop, .delete, pair⟩] := by
  rw [outline_cons, Interval.marks, List.append_assoc]
  rfl

theorem step_lt_of_mem_outline {pair : Pair NodeName} {stretches : List Interval}
    {bound : UInt64} (lasting : ∀ stretch ∈ stretches, stretch.start < stretch.stop)
    (ended : ∀ stretch ∈ stretches, stretch.stop < bound) {mark : Mark}
    (member : mark ∈ outline pair stretches) : mark.step < bound := by
  obtain ⟨stretch, stretchMember, markMember⟩ := List.mem_flatMap.mp member
  have inStretches := List.mem_reverse.mp stretchMember
  have stops := ended stretch inStretches
  have lasts := lasting stretch inStretches
  simp only [Interval.marks, List.mem_cons, List.not_mem_nil, or_false] at markMember
  rcases markMember with rfl | rfl
  · exact UInt64.lt_trans lasts stops
  · exact stops

/-! ## The latest mark before a step -/

section LatestBefore

variable {pair : Pair NodeName} {step moment : UInt64} {marks : List Mark} {change : Change}

theorem latestBefore_concat_of_lt (before : moment < step) :
    latestBefore pair step (marks ++ [⟨moment, change, pair⟩]) = some ⟨moment, change, pair⟩ := by
  simp [latestBefore, List.filter_append, before]

theorem latestBefore_concat_of_le (after : step ≤ moment) :
    latestBefore pair step (marks ++ [⟨moment, change, pair⟩]) = latestBefore pair step marks := by
  simp [latestBefore, List.filter_append, UInt64.not_lt.mpr after]

/-- Right after an addition a pair parts by a deletion. -/
theorem part?_concat_add (before : moment < step)
    (latest : ∀ mark ∈ marks, mark.step ≤ step) :
    part? pair step (marks ++ [⟨moment, .add, pair⟩]) =
      some (marks ++ [⟨moment, .add, pair⟩, ⟨step, .delete, pair⟩]) := by
  rw [part?, latestBefore_concat_of_lt before]
  apply congrArg some
  have last : ∀ mark ∈ marks ++ [(⟨moment, .add, pair⟩ : Mark)], mark.step ≤ step := by
    intro mark member
    rcases List.mem_append.mp member with old | new
    · exact latest mark old
    · rw [List.mem_singleton.mp new]
      exact UInt64.le_of_lt before
  have placed : place ⟨step, .delete, pair⟩ (marks ++ [⟨moment, .add, pair⟩]) =
      (marks ++ [⟨moment, .add, pair⟩]) ++ [⟨step, .delete, pair⟩] := place_eq_concat last
  simpa using placed

/-- Right after a deletion a pair parts later than it did. -/
theorem part?_concat_delete (before : moment < step)
    (latest : ∀ mark ∈ marks, mark.step ≤ step) :
    part? pair step (marks ++ [⟨moment, .delete, pair⟩]) =
      some (marks ++ [⟨step, .delete, pair⟩]) := by
  rw [part?, latestBefore_concat_of_lt before]
  apply congrArg some
  dsimp only
  rw [eraseLast_concat]
  exact place_eq_concat latest

end LatestBefore

/-! ## A contact after all stretches -/

section AfterAll

variable {pair : Pair NodeName} {stretches : List Interval} {next : Interval}
  (lasting : ∀ stretch ∈ stretches, stretch.start < stretch.stop)
  (ended : ∀ stretch ∈ stretches, stretch.stop < next.start)
include lasting ended

theorem opensInterval_after : opensInterval pair next.start (outline pair stretches) = true := by
  have fresh : (⟨next.start, .add, pair⟩ : Mark) ∉ outline pair stretches := by
    intro member
    exact UInt64.lt_irrefl _ (step_lt_of_mem_outline lasting ended member)
  rw [opensInterval, if_neg fresh]
  cases stretches with
  | nil => rfl
  | cons latest earlier =>
      rw [outline_cons_split, latestBefore_concat_of_lt (ended latest List.mem_cons_self)]
      rfl

theorem join?_after (nextLasts : next.start < next.stop) :
    join? pair next.start next.stop (outline pair stretches) =
      some (outline pair (next :: stretches)) := by
  have opens : opensInterval pair next.start (outline pair stretches) = true :=
    opensInterval_after lasting ended
  have before : ∀ mark ∈ outline pair stretches, mark.step ≤ next.start := fun mark member =>
    UInt64.le_of_lt (step_lt_of_mem_outline lasting ended member)
  have connected : connect pair next.start (outline pair stretches) =
      outline pair stretches ++ [⟨next.start, .add, pair⟩] := by
    rw [connect, if_pos opens]
    exact place_eq_concat before
  have uncovered : isCovered pair next.start next.stop (outline pair stretches) = false := by
    rw [isCovered, opens]
    rfl
  rw [join?, uncovered, connected, if_neg Bool.false_ne_true, outline_cons]
  exact part?_concat_add nextLasts fun mark member =>
    UInt64.le_trans (before mark member) (UInt64.le_of_lt nextLasts)

end AfterAll

/-! ## A contact that begins in the latest stretch -/

section InLatest

variable {pair : Pair NodeName} {earlier : List Interval} {latest next : Interval}
  (swept : Interval.Swept next.start (latest :: earlier)) (reaches : next.start ≤ latest.stop)
include swept reaches

theorem opensInterval_within :
    opensInterval pair next.start (outline pair (latest :: earlier)) = false := by
  rw [opensInterval]
  split
  · rfl
  · rename_i fresh
    have begun := swept.begun latest List.mem_cons_self
    have before : latest.start < next.start := by
      apply UInt64.lt_of_le_of_ne begun
      intro same
      apply fresh
      rw [outline_cons_split, ← same]
      simp
    rw [outline_cons_split, latestBefore_concat_of_le reaches, latestBefore_concat_of_lt before]
    rfl

theorem closingStep?_within :
    closingStep? pair next.start (outline pair (latest :: earlier)) = some latest.stop := by
  have begun := swept.begun latest List.mem_cons_self
  have none : (outline pair earlier).find? (fun mark =>
      mark.event = ⟨.delete, pair⟩ ∧ next.start ≤ mark.step) = none := by
    apply List.find?_eq_none.mpr
    intro mark member
    have before : mark.step < latest.start :=
      step_lt_of_mem_outline swept.tail.lasting (fun _ => swept.ended_before) member
    have passed := UInt64.not_le.mpr (UInt64.lt_of_lt_of_le before begun)
    simp [passed]
  rw [closingStep?, outline_cons_split, List.append_assoc, List.find?_append, none]
  simp [reaches]

theorem join?_within :
    join? pair next.start next.stop (outline pair (latest :: earlier)) =
      some (outline pair (Interval.absorb (latest :: earlier) next)) := by
  have opens : opensInterval pair next.start (outline pair (latest :: earlier)) = false :=
    opensInterval_within swept reaches
  have covered : isCovered pair next.start next.stop (outline pair (latest :: earlier)) =
      decide (next.stop ≤ latest.stop) := by
    rw [isCovered, opens, closingStep?_within swept reaches]
    rfl
  rw [join?, covered, Interval.absorb, if_neg (UInt64.not_lt.mpr reaches)]
  by_cases inside : next.stop ≤ latest.stop
  · simp [inside]
  · have longer := UInt64.not_le.mp inside
    have lasts := swept.lasting latest List.mem_cons_self
    rw [if_neg (by simpa using inside), if_neg inside, connect, opens, if_neg Bool.false_ne_true,
      outline_cons_split, part?_concat_delete longer, outline_cons_split]
    intro mark member
    rcases List.mem_append.mp member with old | new
    · have before : mark.step < latest.start :=
        step_lt_of_mem_outline swept.tail.lasting (fun _ => swept.ended_before) old
      exact UInt64.le_of_lt (UInt64.lt_trans before (UInt64.lt_trans lasts longer))
    · rw [List.mem_singleton.mp new]
      exact UInt64.le_of_lt (UInt64.lt_trans lasts longer)

end InLatest

/-- Joining a contact to the marks of stretches takes its interval into the sweep. -/
theorem join?_outline (pair : Pair NodeName) {stretches : List Interval} {next : Interval}
    (swept : Interval.Swept next.start stretches) (nextLasts : next.start < next.stop) :
    join? pair next.start next.stop (outline pair stretches) =
      some (outline pair (Interval.absorb stretches next)) := by
  cases stretches with
  | nil => exact join?_after (by simp) (by simp) nextLasts
  | cons latest earlier =>
      by_cases ended : latest.stop < next.start
      · rw [Interval.absorb, if_pos ended]
        exact join?_after swept.lasting (swept.ended_all ended) nextLasts
      · exact join?_within swept (UInt64.not_lt.mp ended)

end Mark

end ContactReplay
