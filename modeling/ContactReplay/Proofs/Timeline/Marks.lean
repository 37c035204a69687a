import ContactReplay.Proofs.Timeline.Moments
import Mathlib.Data.List.TakeWhile

/-!
# Marks of one pair among the marks of all

A merger keeps the marks of all pairs in one list, ascending by step.  What it does for a contact
depends on the marks of the contact's pair only, and changes only those:

* `about` takes the marks of one pair out of a list;
* `join?` is what a contact makes of a list of marks;
* `map_about_join?` says that joining a contact to all marks joins it to the marks of its pair, and
  `about_of_join?_of_ne` that it leaves the marks of every other pair alone.
-/

namespace ContactReplay.Mark

/-- The marks of one pair. -/
def about (pair : Pair NodeName) (marks : List Mark) : List Mark :=
  marks.filter fun mark => mark.event.pair = pair

@[simp]
theorem mem_about {pair : Pair NodeName} {marks : List Mark} {mark : Mark} :
    mark ∈ about pair marks ↔ mark ∈ marks ∧ mark.event.pair = pair := by
  simp [about]

theorem Sorted.about {marks : List Mark} (sorted : Sorted marks) (pair : Pair NodeName) :
    Sorted (about pair marks) :=
  sorted.filter _

/-! ## Placing and taking out -/

section Prefixes

variable {α : Type} {keep : α → Bool} {items : List α}

theorem takeWhile_eq_filter
    (closed : items.Pairwise fun earlier later => keep later = true → keep earlier = true) :
    items.takeWhile keep = items.filter keep := by
  induction items with
  | nil => rfl
  | cons head tail inductionHypothesis =>
      obtain ⟨headFirst, tailClosed⟩ := List.pairwise_cons.mp closed
      by_cases kept : keep head = true
      · simp [kept, inductionHypothesis tailClosed]
      · have dropped : ∀ item ∈ tail, ¬ keep item = true := fun item member keptItem =>
          kept (headFirst item member keptItem)
        simp [kept, List.filter_eq_nil_iff.mpr dropped]

theorem dropWhile_eq_filter
    (closed : items.Pairwise fun earlier later => keep later = true → keep earlier = true) :
    items.dropWhile keep = items.filter fun item => !keep item := by
  induction items with
  | nil => rfl
  | cons head tail inductionHypothesis =>
      obtain ⟨headFirst, tailClosed⟩ := List.pairwise_cons.mp closed
      by_cases kept : keep head = true
      · simp [kept, inductionHypothesis tailClosed]
      · have dropped : ∀ item ∈ tail, keep item = false := fun item member => by
          by_contra keptItem
          exact kept (headFirst item member (by simpa using keptItem))
        have same : (tail.filter fun item => !keep item) = tail :=
          List.filter_eq_self.mpr fun item member => by simp [dropped item member]
        simp [kept, same]

end Prefixes

theorem place_eq_filter {marks : List Mark} (sorted : Sorted marks) (mark : Mark) :
    place mark marks =
      marks.filter (fun earlier => earlier.step ≤ mark.step) ++
        mark :: marks.filter (fun earlier => !decide (earlier.step ≤ mark.step)) := by
  have closed : marks.Pairwise fun earlier later =>
      decide (later.step ≤ mark.step) = true → decide (earlier.step ≤ mark.step) = true :=
    sorted.imp fun ordered kept => by
      simp only [decide_eq_true_eq] at kept ⊢
      exact UInt64.le_trans ordered kept
  rw [place, takeWhile_eq_filter closed, dropWhile_eq_filter closed]

theorem place_sorted {marks : List Mark} (sorted : Sorted marks) (mark : Mark) :
    Sorted (place mark marks) := by
  rw [place_eq_filter sorted]
  apply List.pairwise_append.mpr
  refine ⟨sorted.filter _, List.pairwise_cons.mpr ⟨?_, sorted.filter _⟩, ?_⟩
  · intro later member
    have after := (List.mem_filter.mp member).2
    simp only [Bool.not_eq_true', decide_eq_false_iff_not, UInt64.not_le] at after
    exact UInt64.le_of_lt after
  · intro earlier earlierMember later laterMember
    have before := (List.mem_filter.mp earlierMember).2
    simp only [decide_eq_true_eq] at before
    rcases List.mem_cons.mp laterMember with rfl | member
    · exact before
    · have after := (List.mem_filter.mp member).2
      simp only [Bool.not_eq_true', decide_eq_false_iff_not, UInt64.not_le] at after
      exact UInt64.le_trans before (UInt64.le_of_lt after)

/-- A mark that no other one is later than is placed at the end. -/
theorem place_eq_concat {marks : List Mark} {mark : Mark}
    (latest : ∀ earlier ∈ marks, earlier.step ≤ mark.step) :
    place mark marks = marks ++ [mark] := by
  have all : ∀ earlier ∈ marks, decide (earlier.step ≤ mark.step) = true := by simpa using latest
  rw [place, List.takeWhile_eq_self_iff.mpr all, List.dropWhile_eq_nil_iff.mpr all]

theorem about_place {marks : List Mark} (sorted : Sorted marks) {mark : Mark}
    {pair : Pair NodeName} (same : mark.event.pair = pair) :
    about pair (place mark marks) = place mark (about pair marks) := by
  rw [place_eq_filter sorted, place_eq_filter (sorted.about pair)]
  simp [about, List.filter_append, same, List.filter_filter, Bool.and_comm]

theorem about_place_of_ne {marks : List Mark} {mark : Mark} {pair : Pair NodeName}
    (different : mark.event.pair ≠ pair) : about pair (place mark marks) = about pair marks := by
  have whole := List.takeWhile_append_dropWhile
    (p := fun earlier : Mark => decide (earlier.step ≤ mark.step)) (l := marks)
  rw [place, about, List.filter_append, List.filter_cons_of_neg (by simpa using different),
    ← List.filter_append, whole, about]

theorem eraseLast_sublist (mark : Mark) (marks : List Mark) :
    (eraseLast mark marks).Sublist marks := by
  have reversed := (List.erase_sublist (a := mark) (l := marks.reverse)).reverse
  simpa [eraseLast] using reversed

theorem eraseLast_concat (marks : List Mark) (mark : Mark) :
    eraseLast mark (marks ++ [mark]) = marks := by
  simp [eraseLast]

theorem about_eraseLast (mark : Mark) (marks : List Mark) (pair : Pair NodeName) :
    about pair (eraseLast mark marks) = eraseLast mark (about pair marks) := by
  rw [eraseLast, eraseLast, about, about, List.filter_reverse, ← List.erase_filter,
    List.filter_reverse]

theorem eraseLast_of_not_mem {mark : Mark} {marks : List Mark} (absent : mark ∉ marks) :
    eraseLast mark marks = marks := by
  rw [eraseLast, List.erase_of_not_mem (by simpa using absent), List.reverse_reverse]

theorem about_eraseLast_of_ne {mark : Mark} {pair : Pair NodeName}
    (different : mark.event.pair ≠ pair) (marks : List Mark) :
    about pair (eraseLast mark marks) = about pair marks := by
  rw [about_eraseLast, eraseLast_of_not_mem]
  intro member
  exact different (mem_about.mp member).2

/-! ## Looking back and forth -/

section Reading

variable (pair : Pair NodeName) (marks : List Mark)

theorem latestBefore_about (step : UInt64) :
    latestBefore pair step (about pair marks) = latestBefore pair step marks := by
  simp only [latestBefore, about, List.filter_filter]
  congr 2
  funext mark
  by_cases same : mark.event.pair = pair <;> simp [same]

theorem opensInterval_about (start : UInt64) :
    opensInterval pair start (about pair marks) = opensInterval pair start marks := by
  rw [opensInterval, opensInterval, latestBefore_about]
  simp

theorem closingStep?_about (start : UInt64) :
    closingStep? pair start (about pair marks) = closingStep? pair start marks := by
  simp only [closingStep?, about, List.find?_filter]
  congr 2
  funext mark
  by_cases same : mark.event.pair = pair
  · simp [same]
  · have other : mark.event ≠ ⟨.delete, pair⟩ := by
      intro event
      exact same (by rw [event])
    simp [same, other]

theorem isCovered_about (start stop : UInt64) :
    isCovered pair start stop (about pair marks) = isCovered pair start stop marks := by
  rw [isCovered, isCovered, opensInterval_about, closingStep?_about]

end Reading

theorem pair_of_latestBefore {pair : Pair NodeName} {step : UInt64} {marks : List Mark}
    {latest : Mark} (found : latestBefore pair step marks = some latest) :
    latest.event.pair = pair := by
  have member := List.mem_of_getLast? found
  have held := (List.mem_filter.mp member).2
  simp only [decide_eq_true_eq] at held
  exact held.1

/-! ## Joining a contact -/

/-- What a contact of a pair makes of the marks so far, if the pair has been added before. -/
def join? (pair : Pair NodeName) (start stop : UInt64) (marks : List Mark) :
    Option (List Mark) :=
  if isCovered pair start stop marks then some marks
  else part? pair stop (connect pair start marks)

section Joining

variable {pair : Pair NodeName} {start stop : UInt64} {marks : List Mark}

theorem connect_sorted (sorted : Sorted marks) : Sorted (connect pair start marks) := by
  rw [connect]
  split
  · exact place_sorted sorted _
  · exact sorted

theorem about_connect (sorted : Sorted marks) :
    about pair (connect pair start marks) = connect pair start (about pair marks) := by
  rw [connect, connect, opensInterval_about]
  split
  · exact about_place sorted rfl
  · rfl

theorem part?_sorted (sorted : Sorted marks) {parted : List Mark}
    (done : part? pair stop marks = some parted) : Sorted parted := by
  obtain ⟨latest, found, rfl⟩ := Option.map_eq_some_iff.mp done
  dsimp only
  split
  · exact place_sorted sorted _
  · exact place_sorted (sorted.sublist (eraseLast_sublist _ _)) _

theorem map_about_part? (sorted : Sorted marks) :
    (part? pair stop marks).map (about pair) = part? pair stop (about pair marks) := by
  rw [part?, part?, latestBefore_about]
  cases found : latestBefore pair stop marks with
  | none => rfl
  | some latest =>
      simp only [Option.map_some]
      cases latest.event.change with
      | add =>
          exact congrArg some (about_place sorted rfl)
      | delete =>
          rw [← about_eraseLast]
          exact congrArg some (about_place (sorted.sublist (eraseLast_sublist _ _)) rfl)

/-- Joining a contact to all marks joins it to the marks of its pair. -/
theorem map_about_join? (sorted : Sorted marks) :
    (join? pair start stop marks).map (about pair) = join? pair start stop (about pair marks) := by
  rw [join?, join?, isCovered_about]
  split
  · rfl
  · rw [map_about_part? (connect_sorted sorted), about_connect sorted]

theorem join?_sorted (sorted : Sorted marks) {joined : List Mark}
    (done : join? pair start stop marks = some joined) : Sorted joined := by
  rw [join?] at done
  split at done
  · cases done
    exact sorted
  · exact part?_sorted (connect_sorted sorted) done

/-- Joining a contact leaves the marks of every other pair alone. -/
theorem about_of_join?_of_ne {other : Pair NodeName} (different : other ≠ pair)
    {joined : List Mark} (done : join? pair start stop marks = some joined) :
    about other joined = about other marks := by
  have connected : about other (connect pair start marks) = about other marks := by
    rw [connect]
    split
    · exact about_place_of_ne different.symm
    · rfl
  rw [join?] at done
  split at done
  · cases done
    rfl
  · obtain ⟨latest, found, rfl⟩ := Option.map_eq_some_iff.mp done
    dsimp only
    rw [about_place_of_ne different.symm, ← connected]
    split
    · rfl
    · apply about_eraseLast_of_ne
      rw [pair_of_latestBefore found]
      exact different.symm

end Joining

end ContactReplay.Mark
