/-!
# Unordered pairs

A `Pair` holds two elements of an ordered type, the smaller one first, so that a pair built from `x`
and `y` is the pair built from `y` and `x`.  The two elements may be equal.  Pairs are ordered by
their smaller element and then by their larger one.
-/

namespace ContactReplay

/-- Two elements without an order between them, stored smaller first. -/
structure Pair (α : Type) [Ord α] where
  low : α
  high : α
  /-- The first element is at most the second. -/
  ordered : (compare low high).isLE

namespace Pair

variable {α : Type} [Ord α]

instance [DecidableEq α] : DecidableEq (Pair α) := fun left right =>
  decidable_of_iff (left.low = right.low ∧ left.high = right.high) (by
    cases left
    cases right
    simp)

/-- The pair of two elements. -/
def of [Std.OrientedOrd α] (first second : α) : Pair α :=
  if inOrder : (compare first second).isLE then ⟨first, second, inOrder⟩
  else ⟨second, first, by
    rw [Std.OrientedOrd.eq_swap (a := second), Ordering.isLE_swap]
    revert inOrder
    cases compare first second <;> decide⟩

def ends (pair : Pair α) : α × α := (pair.low, pair.high)

instance : Ord (Pair α) := ⟨@compareOn (α × α) (Pair α) lexOrd ends⟩

instance [Std.TransOrd α] : Std.TransOrd (Pair α) :=
  inferInstanceAs (Std.TransCmp (@compareOn (α × α) (Pair α) lexOrd ends))

instance [Std.LawfulEqOrd α] : Std.LawfulEqOrd (Pair α) where
  compare_self {pair} := @Std.ReflCmp.compare_self (α × α) (lexOrd).compare _ pair.ends
  eq_of_compare {left right} same := by
    have endsSame : left.ends = right.ends :=
      @Std.LawfulEqCmp.eq_of_compare (α × α) (lexOrd).compare _ _ _ same
    cases left
    cases right
    simpa [ends] using endsSame

instance [ToString α] : ToString (Pair α) :=
  ⟨fun pair => s!"({pair.low}, {pair.high})"⟩

instance [Repr α] : Repr (Pair α) := ⟨fun pair => reprPrec pair.ends⟩

/-- The order in which two elements are given makes no difference. -/
theorem of_comm [Std.OrientedOrd α] [Std.LawfulEqOrd α] (first second : α) :
    of first second = of second first := by
  have swapped : compare second first = (compare first second).swap := Std.OrientedOrd.eq_swap
  unfold of
  split <;> split
  · rename_i below above
    have same : first = second := Std.LawfulEqOrd.eq_of_compare <| by
      rw [swapped] at above
      cases order : compare first second <;> simp_all
    simp [same]
  · rfl
  · rfl
  · rename_i notBelow notAbove
    rw [swapped] at notAbove
    cases order : compare first second <;> simp [order] at notBelow notAbove

theorem of_low_high [Std.OrientedOrd α] (pair : Pair α) : of pair.low pair.high = pair :=
  dif_pos pair.ordered

theorem of_eq_or [Std.OrientedOrd α] (first second : α) :
    ((of first second).low = first ∧ (of first second).high = second) ∨
      ((of first second).low = second ∧ (of first second).high = first) := by
  unfold of
  split
  · exact Or.inl ⟨rfl, rfl⟩
  · exact Or.inr ⟨rfl, rfl⟩

/-- Two pairs are the same exactly if they have the same elements in either order. -/
theorem of_eq_of_iff [Std.OrientedOrd α] [Std.LawfulEqOrd α] {first second third fourth : α} :
    of first second = of third fourth ↔
      (first = third ∧ second = fourth) ∨ (first = fourth ∧ second = third) := by
  constructor
  · intro same
    have low := congrArg low same
    have high := congrArg high same
    rcases of_eq_or first second with ⟨firstLow, secondHigh⟩ | ⟨secondLow, firstHigh⟩ <;>
    rcases of_eq_or third fourth with ⟨thirdLow, fourthHigh⟩ | ⟨fourthLow, thirdHigh⟩
    · exact Or.inl ⟨firstLow.symm.trans (low.trans thirdLow),
        secondHigh.symm.trans (high.trans fourthHigh)⟩
    · exact Or.inr ⟨firstLow.symm.trans (low.trans fourthLow),
        secondHigh.symm.trans (high.trans thirdHigh)⟩
    · exact Or.inr ⟨firstHigh.symm.trans (high.trans fourthHigh),
        secondLow.symm.trans (low.trans thirdLow)⟩
    · exact Or.inl ⟨firstHigh.symm.trans (high.trans thirdHigh),
        secondLow.symm.trans (low.trans fourthLow)⟩
  · rintro (⟨rfl, rfl⟩ | ⟨rfl, rfl⟩)
    · rfl
    · exact of_comm first second

end Pair

end ContactReplay
